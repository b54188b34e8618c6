/-
# Order of values

Numbers are ordered by value, texts by the code points of their letters, and tuples by the first
place in which they differ, a shorter one before whatever continues it. Between other values there
is no order, and a tuple has none with another one if the items in the deciding place have none.
What is no number comes neither before nor behind any number.
-/
import Matchday.Value.Equivalence

namespace Matchday
namespace Value

/-! ## 1. What comes before -/

mutual
/-- Whether the first value comes before the second; nothing if they have no order. -/
def before? : Value → Value → Option Bool
  | .text s, w => match w with | .text t => some (decide (s < t)) | _ => Option.none
  | .tuple xs, w => match w with | .tuple ys => tupleBefore? xs ys | _ => Option.none
  | .bool b, w => numberBefore? (.bool b) w
  | .int n, w => numberBefore? (.int n) w
  | .decimal d, w => numberBefore? (.decimal d) w
  | .rule r, w => numberBefore? (.rule r) w
  | .half h, w => numberBefore? (.half h) w
  | .none, _ | .list _, _ | .dict _, _ | .set _, _ | .bye, _ => Option.none
termination_by structural v => v
/-- Whether the first list of items comes before the second. -/
def tupleBefore? : List Value → List Value → Option Bool
  | [], ys => some (!ys.isEmpty)
  | x :: xs, ys => match ys with
    | [] => some false
    | y :: ys => if x == y then tupleBefore? xs ys else before? x y
termination_by structural xs => xs
/-- Whether the first number is smaller. -/
def numberBefore? (v w : Value) : Option Bool :=
  match v.number?, w.number? with
  | some a, some b => some (a.less b)
  | _, _ => Option.none
end

/-- **Whole numbers are ordered as such.** -/
theorem before?_int (a b : Int) : before? (.int a) (.int b) = some (decide (a < b)) := by
  simp [before?, numberBefore?, number?]

/-- Whether the first value comes before the second or is equal to it. -/
def atMost? (v w : Value) : Option Bool := (before? v w).map (· || equals v w)

/-! ## 2. Sorting -/

/-- Puts a value behind all that do not come after it. -/
def insertBefore? (v : Value) : List Value → Option (List Value)
  | [] => some [v]
  | w :: ws => do
    if ← before? v w then some (v :: w :: ws) else (insertBefore? v ws).map (w :: ·)

/-- The values in ascending order; nothing if two of them have no order. Where something is no
number nothing is ascending, and what comes out is only some order. -/
def sort? (vs : List Value) : Option (List Value) :=
  if vs.all fun v => vs.all fun w => v == w || (before? v w).isSome then
    vs.foldrM insertBefore? []
  else Option.none

end Value
end Matchday
