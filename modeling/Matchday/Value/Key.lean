/-
# Keys

A value can serve as a key when it cannot change: lists, dictionaries and sets cannot serve, and a
tuple serves if all its items do. Where a value does not serve, the reason is the kind of the
first part that stands in the way, looking into tuples from left to right.
-/
import Matchday.Value.Kind

namespace Matchday
namespace Value

mutual
/-- The kind of the first part that keeps a value from serving as a key. -/
def obstacle? : Value → Option Kind
  | .list _ => some .list
  | .dict _ => some .dict
  | .set _ => some .set
  | .tuple items => firstObstacle? items
  | .none | .bool _ | .int _ | .decimal _ | .text _ | .bye | .rule _ | .half _ => Option.none
termination_by structural v => v
/-- The first obstacle in a list of values. -/
def firstObstacle? : List Value → Option Kind
  | [] => Option.none
  | v :: vs => match obstacle? v with
    | some k => some k
    | Option.none => firstObstacle? vs
termination_by structural vs => vs
end

/-- The value can serve as a key. -/
def isKey (v : Value) : Bool := v.obstacle?.isNone

/-- The first obstacle among values is that of the first value with one. -/
theorem firstObstacle?_eq (vs : List Value) : firstObstacle? vs = vs.findSome? obstacle? := by
  induction vs with
  | nil => rfl
  | cons v vs ih =>
    rw [firstObstacle?, List.findSome?_cons, ih]
    cases v.obstacle? <;> rfl

/-- **A tuple serves exactly when all its items do.** -/
theorem isKey_tuple (items : List Value) : (tuple items).isKey = items.all isKey := by
  rw [isKey, obstacle?, firstObstacle?_eq]
  induction items with
  | nil => rfl
  | cons v vs ih =>
    rw [List.findSome?_cons, List.all_cons, ← ih, isKey]
    cases v.obstacle? <;> simp

end Value
end Matchday
