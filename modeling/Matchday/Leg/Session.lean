/-
# Sessions with a leg

A leg that was handed out can be read, and it can be changed: pairings are swapped or added.
-/
import Matchday.Leg
import Matchday.Session

namespace Matchday.Leg

/-- A request to a leg. -/
inductive Request where
  | show
  | turns
  | ofTurn (turn : Value)
  | text
  | textAt (index : Value)
  | swapAt (index : Value)
  | append (parts : Row)
  | sameAt (index other : Value)

/-- What is answered about a leg. -/
inductive Answer where
  | leg (leg : Leg)
  | pairing (pairing : Pairing)
  | values (values : List Value)
  | text (text : String)
  | size (size : Nat)
  | truth (truth : Bool)

/-- Answers a request. -/
def answer : Request → Action Leg Answer
  | .show => do
    let leg ← Action.state
    return .leg leg
  | .turns => do
    let leg ← Action.state
    let ts ← Outcome.ofExcept (turns leg)
    return .values ts
  | .ofTurn t => do
    let leg ← Action.state
    return .leg (ofTurn leg t)
  | .text => do
    let leg ← Action.state
    let s ← Outcome.ofExcept (text leg)
    return .text s
  | .textAt i => do
    let leg ← Action.state
    let p ← Outcome.ofExcept (pairing leg i)
    return .text p.text
  | .swapAt i => do
    let leg ← Action.state
    let changed ← Outcome.ofExcept (swappedAt leg i)
    let p ← Outcome.ofExcept (pairing changed i)
    Action.change fun _ => changed
    return .pairing p
  | .append parts => do
    let p ← Outcome.ofExcept (Pairing.ofRow parts)
    Action.change fun (leg : Leg) => leg ++ [p]
    let leg ← Action.state
    return .size leg.length
  | .sameAt i j => do
    let leg ← Action.state
    let p ← Outcome.ofExcept (pairing leg i)
    let q ← Outcome.ofExcept (pairing leg j)
    return .truth (p == q)

end Matchday.Leg
