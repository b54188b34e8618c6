/-
# Kinds of values

Every value has a kind, and a planner asks of its participants that they are of a given one.
Truth values and the members of the two choices are also whole numbers, and every value is of the
kind `any`. The names are those that messages use.
-/
import Matchday.Value

namespace Matchday

/-- A kind of value. -/
inductive Kind where
  | any
  | none
  | bool
  | int
  | decimal
  | text
  | tuple
  | list
  | dict
  | set
  | bye
  | rule
  | half
deriving DecidableEq

namespace Kind

/-- The name of a kind in messages. -/
def name : Kind → String
  | .any => "object"
  | .none => "NoneType"
  | .bool => "bool"
  | .int => "int"
  | .decimal => "float"
  | .text => "str"
  | .tuple => "tuple"
  | .list => "list"
  | .dict => "dict"
  | .set => "set"
  | .bye => "BYE"
  | .rule => "RefereeType"
  | .half => "LegType"

/-- The kinds that whole numbers come in. -/
def isWhole (k : Kind) : Bool := k == .int || k == .bool || k == .rule || k == .half

/-- Whatever is of the first kind is also of the second. -/
def isWithin (k l : Kind) : Bool := l == .any || k == l || (l == .int && k.isWhole)

end Kind

/-- The kind of a value. -/
def Value.kind : Value → Kind
  | .none => .none
  | .bool _ => .bool
  | .int _ => .int
  | .decimal _ => .decimal
  | .text _ => .text
  | .tuple _ => .tuple
  | .list _ => .list
  | .dict _ => .dict
  | .set _ => .set
  | .bye => .bye
  | .rule _ => .rule
  | .half _ => .half

/-- The value is of a kind. -/
def Value.isOf (v : Value) (k : Kind) : Bool := v.kind.isWithin k

end Matchday
