/-
# Legs

A leg is what a plan hands out: its pairings in playing order, each with a turn, the two
participants and a referee. It is read turn by turn (`turns`, `ofTurn`), which needs turns that
serve as keys and that have an order among each other, and it is written that way too (`text`).
-/
import Matchday.Outcome
import Matchday.Row
import Matchday.Value.Order

namespace Matchday

/-- A match of a plan with its referee, which may be nobody. -/
structure Pairing where
  turn : Value
  home : Value
  guest : Value
  referee : Value

/-- The pairings of a leg, in playing order. -/
abbrev Leg := List Pairing

namespace Pairing

/-- The same pairing the other way round. The referee stays. -/
def swapped (p : Pairing) : Pairing := { p with home := p.guest, guest := p.home }

/-- The four parts of a pairing. -/
def parts (p : Pairing) : List Value := [p.turn, p.home, p.guest, p.referee]

/-- Two pairings are the same in all four parts. -/
def same (p q : Pairing) : Bool :=
  p.turn == q.turn && p.home == q.home && p.guest == q.guest && p.referee == q.referee

instance : BEq Pairing := ⟨same⟩

/-- A pairing from its parts; without a fourth one it has no referee. -/
def ofRow : Row → Except Fault Pairing
  | [t, h, g] => .ok ⟨t, h, g, .none⟩
  | [t, h, g, r] => .ok ⟨t, h, g, r⟩
  | _ => .error (.misused .kind)

/-- The referee in words: a dash for nobody. -/
def refereeText : Value → String
  | .none => "-"
  | v => v.plain

/-- A pairing in words. -/
def text (p : Pairing) : String :=
  p.home.plain ++ " : " ++ p.guest.plain ++ " / " ++ refereeText p.referee

end Pairing

namespace Leg

/-! ## 1. Turns -/

/-- The turns of a leg, each once, in ascending order. -/
def turns (leg : Leg) : Except Fault (List Value) := do
  let _ ← leg.mapM (·.turn.asKey)
  match Value.sort? (leg.map (·.turn)).eraseDups with
  | some ts => return ts
  | none => .error (.misused .kind)

/-- The pairings of a turn, in playing order. -/
def ofTurn (leg : Leg) (t : Value) : Leg := leg.filter fun p => equals p.turn t

/-! ## 2. Text -/

/-- The lines of a turn: its number, then its pairings. -/
def turnLines (leg : Leg) (t : Value) : List String :=
  ("Turn " ++ t.plain ++ ":") :: (ofTurn leg t).map fun p => "  " ++ p.text

/-- A leg in words, turn by turn. -/
def text (leg : Leg) : Except Fault String := do
  return String.intercalate "\n" ((← turns leg).flatMap (turnLines leg))

/-! ## 3. Single pairings -/

/-- The place that an index means: a negative one counts from the end. -/
def place (leg : Leg) (index : Value) : Except Fault Nat :=
  match index.whole? with
  | none => .error (.misused .kind)
  | some i =>
    let j := if i < 0 then i + leg.length else i
    if 0 ≤ j ∧ j < leg.length then .ok j.toNat else .error (.misused .index)

/-- The pairing at an index. -/
def pairing (leg : Leg) (index : Value) : Except Fault Pairing := do
  match leg[← place leg index]? with
  | some p => return p
  | none => .error (.misused .index)

/-- The leg with the pairing at an index the other way round. -/
def swappedAt (leg : Leg) (index : Value) : Except Fault Leg := do
  return leg.modify (← place leg index) Pairing.swapped

/-- Two legs have the same pairings in the same order. -/
def same (leg other : Leg) : Bool :=
  leg.length == other.length && (leg.zip other).all fun p => p.1 == p.2

end Leg
end Matchday
