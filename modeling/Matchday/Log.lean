/-
# The log

Planning leaves records: what was generated, what was chosen, why something was turned away. A
record has a level and the part of the planner that wrote it. Levels are ordered by how much they
matter, and a reader who sets a threshold sees the records at that level and above.
-/
namespace Matchday

/-- How much a record matters. -/
inductive Level where
  | debug
  | info
  | warning
  | error
deriving DecidableEq

namespace Level

/-- The rank of a level. -/
def rank : Level → Nat
  | .debug => 10
  | .info => 20
  | .warning => 30
  | .error => 40

/-- The name of a level. -/
def name : Level → String
  | .debug => "DEBUG"
  | .info => "INFO"
  | .warning => "WARNING"
  | .error => "ERROR"

/-- All levels, by rank. -/
def all : List Level := [.debug, .info, .warning, .error]

end Level

/-- The parts of the planner that write records. -/
inductive Channel where
  | choices
  | settings
  | circle
  | ideal
  | sequencer
  | referee
  | planner
deriving DecidableEq

/-- One record of the log. -/
structure Record where
  level : Level
  channel : Channel
  text : String
deriving DecidableEq

/-- The records at a level and above, in order. -/
def visibleAt (threshold : Level) (log : List Record) : List Record :=
  log.filter fun r => threshold.rank ≤ r.level.rank

end Matchday
