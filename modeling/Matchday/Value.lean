/-
# Values

Participants, turns, referees and settings may be anything that a plan can be made for: numbers,
texts, tuples of these, the members of the two choices. Whoever plans a round only compares,
counts, orders and writes them. Some values cannot be told apart by a key (lists, dictionaries,
sets); they occur all the same, because a plan has to turn them away with a reason.

A dictionary is its entries and a set its items, each in the order in which they came; equal keys
and items are merged on the way in (`Value.ofEntries`, `Value.setItems` beside the comparison).

A decimal is binary: it is rounded when it is read, it may be infinite, and it may be no number at
all. What is no number is not even equal to itself. Participants are meant to have an equality that
goes by value, and turns to be whole numbers, so it is neither; but nobody turns it away, and what
becomes of it then is part of what is said about a plan.
-/
import Matchday.Choice
import Matchday.Decimal

namespace Matchday

/-- A value that a plan may come across. -/
inductive Value where
  /-- Nothing, such as the referee of a match that has none. -/
  | none
  | bool (b : Bool)
  | int (n : Int)
  | decimal (d : Decimal)
  | text (s : String)
  | tuple (items : List Value)
  | list (items : List Value)
  | dict (entries : List (Value × Value))
  | set (items : List Value)
  /-- The opponent of whoever rests. -/
  | bye
  | rule (r : RefereeRule)
  | half (h : Half)

namespace Value

instance : Inhabited Value := ⟨.none⟩

/-! ## 1. Numbers -/

/-- The number that a value is. Truth values and members of a choice are numbers too. -/
def number? : Value → Option Number
  | .bool b => some (.ofInt (if b then 1 else 0))
  | .int n => some (.ofInt n)
  | .decimal d => some d.number
  | .rule r => some (.ofInt r.number)
  | .half h => some (.ofInt h.number)
  | _ => Option.none

/-- The whole number that a value is, decimals apart. -/
def whole? : Value → Option Int
  | .bool b => some (if b then 1 else 0)
  | .int n => some n
  | .rule r => some r.number
  | .half h => some h.number
  | _ => Option.none

/-! ## 2. Flags -/

/-- How a value counts as a flag: nothing, zero and whatever is empty are off. -/
def isOn : Value → Bool
  | .none => false
  | .bool b => b
  | .int n => n != 0
  | .decimal d => !d.isZero
  | .text s => !s.isEmpty
  | .tuple items | .list items | .set items => !items.isEmpty
  | .dict entries => !entries.isEmpty
  | .bye => true
  | .rule r => r.number != 0
  | .half h => h.number != 0

end Value
end Matchday
