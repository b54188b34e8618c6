/-
# Balancing the last turn

When somebody rests in every turn, the matches that fall away leave some participants with one
home match too many, and as many with one too few. The last turn mends this: every match of it
whose home participant has too many home matches is played the other way round. Home counts are
enough to look at, because a participant with too many home matches meets one with too many
matches as guest.
-/
import Matchday.Source
import Matchday.Tally

namespace Matchday.Balance

variable {τ α : Type} [BEq τ] [Equality τ] [BEq α]

/-! ## 1. The repair -/

/-- The unbalanced players with more home than guest matches. -/
def surplus (ms : List (Match τ α)) : List α :=
  ((Tally.unbalanced ms).filter fun c => c.guest < c.home).map (·.player)

/-- A match of the turn whose home participant is among the given ones. -/
def isDue (t : τ) (ahead : List α) (m : Match τ α) : Bool :=
  equals m.turn t && ahead.contains m.home

/-- The schedule with the due matches of the turn played the other way round. -/
def repaired (t : τ) (ms : List (Match τ α)) : List (Match τ α) :=
  let ahead := surplus ms
  ms.map fun m => if isDue t ahead m then m.swapped else m

/-! ## 2. Repairing fixtures -/

/-- The record of a swap. A turn that is no number cannot be reported. -/
def swapRecord? (m : Fixture) : Option Record :=
  m.turn.wholeText?.map fun t =>
    ⟨.debug, .circle,
      "Swapping home/guest of " ++ m.home.plain ++ " - " ++ m.guest.plain ++ " in turn " ++ t⟩

/-- Repairs a turn. All participants have to serve as keys. -/
def repair (t : Value) (ms : List Fixture) : Outcome (List Fixture) := do
  let ms ← Outcome.ofExcept (ms.mapM Row.counted)
  Outcome.writeAll ((ms.filter (isDue t (surplus ms))).filterMap swapRecord?)
  return repaired t ms

/-- Repairs a turn of a schedule in rows. With an even number of participants nobody rests and
nothing is looked at. -/
def repairRows (t : Value) (participants : Source) (rows : List Row) : Outcome (List Row) := do
  let n ← Outcome.ofExcept participants.size
  if n % 2 = 0 then return rows
  let ms ← Outcome.ofExcept (rows.mapM (·.fixture >>= Row.counted))
  return (← repair t ms).map Row.ofFixture

end Matchday.Balance
