/-
# The threshold of the log

The threshold is set by name, in any case. Besides the levels that records have, a few further
names are known. Without a setting, or with one that names no threshold, records from the level
`info` on are kept.
-/
import Matchday.Log
import Matchday.Text.Capitals

namespace Matchday.Log

/-- The thresholds by name, each with its rank. -/
def thresholds : List (String × Nat) := [
  ("NOTSET", 0), ("DEBUG", 10), ("INFO", 20), ("WARN", 30), ("WARNING", 30), ("ERROR", 40),
  ("CRITICAL", 50), ("FATAL", 50)]

/-- The rank of the threshold that a setting names. -/
def thresholdRank (setting : Option String) : Nat :=
  ((setting.bind fun s => thresholds.lookup (Text.capitals s))).getD Level.info.rank

end Matchday.Log
