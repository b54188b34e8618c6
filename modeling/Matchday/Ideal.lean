/-
# Ideal schedules

Where there is an ideal table for the number of participants, the schedule is that table with the
participants in place of their numbers. The tables number turns and participants from one; the
schedule numbers its turns from zero.
-/
import Matchday.Ideal.Tables
import Matchday.Row

namespace Matchday.Ideal

/-- The matches of a table, with turns numbered from one. -/
def numbered (turns : List Turn) : List (Match Nat Nat) :=
  (turns.zipIdx 1).flatMap fun turn => turn.1.map fun pair => ⟨turn.2, pair.1, pair.2⟩

/-- The table for a number of participants. -/
def table? (n : Nat) : Option (List (Match Nat Nat)) := (tables.lookup n).map numbered

/-- The table under a key, which need not be a number. -/
def tableUnder (key : Value) : Except Fault (Option (List (Match Nat Nat))) := do
  key.asKey
  return (tables.find? fun entry => Value.int entry.1 == key).map (numbered ·.2)

/-- The participant with a number. -/
def participant (ps : List Value) (number : Nat) : Value := ps.getD (number - 1) .bye

/-- The schedule, if there is a table. -/
def schedule? (ps : List Value) : Option (List Fixture) :=
  (table? ps.length).map fun ms =>
    ms.map (·.map (fun t : Nat => .int ((t : Int) - 1)) (participant ps))

/-- Makes the schedule, or turns the participants away. -/
def plan (ps : List Value) : Outcome (List Fixture) :=
  match schedule? ps with
  | none => .reject (.noTable ps.length)
  | some ms => do
    Outcome.write .info .ideal
      ("Using ideal round robin table for " ++ Text.natural ps.length ++ " participants")
    return ms

end Matchday.Ideal
