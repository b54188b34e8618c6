/-
# Referee duty

A rota gives every match its referee, one match after the other. Under three of the four rules the
match alone decides: nobody, the participant at home, the guest. Under the fourth somebody else of
the round has to go on duty, and the rota remembers who was on duty before (`Rota.pick?`).

Free are those who play neither at home nor as guest. Among them the one on duty last is passed
over, as long as somebody else is free. Of those left the one with the fewest duties so far goes
on duty, and among equals the one listed first. When nobody is free the match is turned away, and
the rota stays as it was.
-/
import Matchday.Pick
import Matchday.Source
import Matchday.Row

namespace Matchday

/-- Who may go on duty, and who has been. Without a rule, no match can be given a referee. -/
structure Rota where
  rule : Option RefereeRule
  referees : List Value
  assigned : List Value

namespace Rota

/-! ## 1. The choice of another referee -/

/-- Those who do not play in the match. -/
def free (referees : List Value) (home guest : Value) : List Value :=
  referees.filter fun r => !equals r home && !equals r guest

/-- Who was on duty last: nobody, before the first duty. -/
def lastOnDuty (assigned : List Value) : Value := assigned.getLast?.getD .none

/-- The free referees without the one on duty last, unless nobody is left then. -/
def rested (assigned candidates : List Value) : List Value :=
  let others := candidates.filter (!equals · (lastOnDuty assigned))
  if others.isEmpty then candidates else others

/-- The referee of a match between two participants, if somebody is free. -/
def pick? (referees assigned : List Value) (home guest : Value) : Option Value :=
  Pick.least assigned.count (rested assigned (free referees home guest))

/-- **A referee is found exactly when somebody is free.** -/
theorem pick?_eq_none_iff (referees assigned : List Value) (home guest : Value) :
    pick? referees assigned home guest = none ↔ free referees home guest = [] := by
  simp only [pick?, Pick.least_eq_none_iff, rested]
  split
  · rfl
  · rename_i h
    refine ⟨fun h' => absurd (List.isEmpty_iff.mpr h') h, fun h' => ?_⟩
    simp [h']

/-! ## 2. The rota -/

/-- A rota for a rule. Only where another referee is wanted do there have to be referees. -/
def create (rule : Option RefereeRule) (referees : Option Source) : Outcome Rota :=
  match referees with
  | some s => do return ⟨rule, ← Outcome.ofExcept s.items, []⟩
  | none =>
    match rule with
    | some .other => do
      Outcome.write .error .referee "No referees given for OtherFromRoundRefereeAssigner"
      Outcome.fail .refereesRequired
    | _ => return ⟨rule, [], []⟩

/-- A rota with one duty more. -/
def onDuty (v : Value) (r : Rota) : Rota := { r with assigned := r.assigned ++ [v] }

/-- Puts somebody else on duty. -/
def assignOther (m : Fixture) : Action Rota Value := do
  let r ← Action.state
  match pick? r.referees r.assigned m.home m.guest with
  | none => Outcome.reject (.nobodyFree m.home m.guest)
  | some v =>
    Action.change (onDuty v)
    return v

/-- The referee of the match in a row. -/
def assign (row : Row) : Action Rota Value := do
  let r ← Action.state
  match r.rule with
  | none => Outcome.misuse .undecided
  | some .nobody => return .none
  | some .home => Outcome.ofExcept (row.part (Row.place .home))
  | some .guest => Outcome.ofExcept (row.part (Row.place .guest))
  | some .other => do
    let m ← Outcome.ofExcept row.fixture
    assignOther m

/-- The referees of some matches, in order. -/
def assignAll : List Fixture → Action Rota (List Value)
  | [] => return []
  | m :: ms => do
    let v ← assign (Row.ofFixture m)
    let vs ← assignAll ms
    return v :: vs

end Rota
end Matchday
