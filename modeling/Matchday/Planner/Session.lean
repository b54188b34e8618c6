/-
# Sessions with a planner

A planner can be given participants and settings again and again, and between that it hands out
legs. It has two legs of its own, the first and the mirrored one, and what it hands out is one of
these, not a copy: whoever keeps it under a name reads and changes the very same leg. Therefore
legs have places, at which all of them lie that were ever made (`Desk.legs`), and names stand for
places.

The planner makes itself two new legs whenever it plans, before it hands one of them out, and two
empty ones when it accepts participants. The old ones stay where they are. The settings of a
planner can be given values by name; which of their requests are covered by that does not matter,
since a planner validates its settings only when it is made.
-/
import Matchday.Leg.Session
import Matchday.Planner
import Matchday.Settings.Panel

namespace Matchday.Planner

/-! ## 1. Desks -/

/-- A planner, all legs it has made, the places of its own two legs, and the places of those that
were handed out, by name. -/
structure Desk where
  planner : Planner
  legs : List Leg
  firstPlace : Nat
  mirroredPlace : Nat
  kept : List (String × Nat)

namespace Desk

/-- A planner that has handed out nothing yet. Its own legs are empty. -/
def opened (p : Planner) : Desk := ⟨p, [[], []], 0, 1, []⟩

/-- The place of the planner's own leg. -/
def ownPlace (d : Desk) : Half → Nat
  | .first => d.firstPlace
  | .mirrored => d.mirroredPlace

/-- The leg in a place. -/
def legAt (d : Desk) (place : Nat) : Leg := d.legs.getD place []

/-- Changes the leg in a place. -/
def put (place : Nat) (leg : Leg) (d : Desk) : Desk := { d with legs := d.legs.set place leg }

/-- Makes the planner two new legs. -/
def renew (first mirrored : Leg) (d : Desk) : Desk :=
  { d with
    legs := d.legs ++ [first, mirrored]
    firstPlace := d.legs.length
    mirroredPlace := d.legs.length + 1 }

/-- Hands out the planner's own leg, which is kept under a name from now on, in place of any other
of that name. -/
def handOut (name : String) (half : Half) (d : Desk) : Desk :=
  { d with kept := (name, d.ownPlace half) :: d.kept.filter (·.1 != name) }

/-- The place of the leg kept under a name. -/
def place? (d : Desk) (name : String) : Except Fault Nat :=
  match d.kept.lookup name with
  | some place => .ok place
  | none => .error (.misused .key)

/-- The leg kept under a name. -/
def leg? (d : Desk) (name : String) : Except Fault Leg := do
  let place ← d.place? name
  return d.legAt place

end Desk

/-! ## 2. Requests -/

/-- A request to a planner, or to a leg it has handed out. -/
inductive Request where
  | setParticipants (source : Source)
  | participants
  | leg (rule half : Value) (name : String)
  | matchesPerLeg
  | set (name : String) (value : Value)
  | sameLegs (name other : String)
  | ofLeg (name : String) (request : Leg.Request)

/-- What is answered in a session. -/
inductive Answer where
  | done
  | values (values : List Value)
  | size (size : Nat)
  | truth (truth : Bool)
  | leg (answer : Leg.Answer)

/-- Does something with the planner of a desk. -/
def onPlanner {α : Type} (x : Action Planner α) : Action Desk α := fun d =>
  let (y, p) := x d.planner
  (y, { d with planner := p })

/-- Answers a request to a leg that is kept. -/
def onLeg (name : String) (request : Leg.Request) : Action Desk Leg.Answer := fun d =>
  match d.place? name with
  | .error e => (Outcome.fail e, d)
  | .ok place =>
    let (y, changed) := Leg.answer request (d.legAt place)
    (y, d.put place changed)

/-- Plans a round, for a rule and a half as they are asked for, and hands out one of its legs. -/
def handOutLeg (rule half : Value) (name : String) : Action Desk Leg := do
  let d ← Action.state
  let rule ← d.planner.ruleFor rule
  let half ← Half.read half
  let draft ← d.planner.draft rule
  Action.change (Desk.renew (firstLeg draft) (mirroredLeg rule draft))
  Action.change (Desk.handOut name half)
  let d ← Action.state
  return d.legAt (d.ownPlace half)

/-- Answers a request. -/
def answer : Request → Action Desk Answer
  | .setParticipants source => do
    onPlanner (setParticipants source)
    Action.change (Desk.renew [] [])
    let d ← Action.state
    return .values d.planner.participants
  | .participants => do
    let d ← Action.state
    return .values d.planner.participants
  | .leg rule half name => do
    let leg ← handOutLeg rule half name
    return .leg (.leg leg)
  | .matchesPerLeg => do
    let d ← Action.state
    return .size d.planner.matchesPerLeg
  | .set name v => do
    let d ← Action.state
    let given ← Outcome.ofExcept ((Settings.Panel.opened d.planner.settings).give name v)
    Action.change fun (d : Desk) =>
      { d with planner := { d.planner with settings := given.settings } }
    return .done
  | .sameLegs name other => do
    let d ← Action.state
    let leg ← Outcome.ofExcept (d.leg? name)
    let otherLeg ← Outcome.ofExcept (d.leg? other)
    return .truth (Leg.same leg otherLeg)
  | .ofLeg name request => do
    let a ← onLeg name request
    return .leg a

end Matchday.Planner
