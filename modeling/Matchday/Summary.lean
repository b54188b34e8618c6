/-
# Summaries

A schedule in figures: its turns, the home and guest matches of all players, those of them who are
not balanced, and the longest streaks of every participant.
-/
import Matchday.Circle
import Matchday.Ideal
import Matchday.Sequencer
import Matchday.Streak
import Matchday.Tally

namespace Matchday

/-- A schedule in figures. -/
structure Summary where
  turns : List Value
  counts : List (Count Value)
  unbalanced : List (Count Value)
  /-- The longest streaks at home and as guest, one pair for each participant. -/
  streaks : List (Nat × Nat)

namespace Summary

/-- A way to make a schedule. -/
inductive Method where
  | circle
  | ideal
  | sequenced (prefersApart shortensStreaks : Bool)

/-- The schedule that a method makes. A sequencer asks for the participants once more, when the
circle has taken them. -/
def Method.schedule (source : Source) (method : Method) : Outcome (List Fixture) := do
  let ps ← Outcome.ofExcept source.items
  match method with
  | .circle => Circle.plan ps
  | .ideal => Ideal.plan ps
  | .sequenced prefersApart shortensStreaks => do
    let ms ← Circle.plan ps
    let players ← Outcome.ofExcept source.spent.items
    (Sequencer.sequence (.create players (.ofFixtures ms) prefersApart shortensStreaks)).1

/-- The figures of a schedule. Players have to serve as keys. -/
def ofSchedule (ps : List Value) (ms : List Fixture) : Except Fault Summary := do
  let ms ← ms.mapM Row.counted
  return {
    turns := Schedule.turns ms
    counts := Tally.counts ms
    unbalanced := Tally.unbalanced ms
    streaks := ps.map fun p => (Streak.longest .home p ms, Streak.longest .guest p ms) }

/-- What is left of the participants when the schedule has been made from them. What a sequencer
is to work on, is taken from a copy. -/
def Method.left (source : Source) : Method → Source
  | .circle | .ideal => source.spent
  | .sequenced _ _ => source

/-- Makes a schedule and sums it up, with streaks for the participants that are left. -/
def make (source : Source) (method : Method) : Outcome Summary := do
  let ms ← method.schedule source
  let ps ← Outcome.ofExcept (method.left source).items
  Outcome.ofExcept (ofSchedule ps ms)

end Summary
end Matchday
