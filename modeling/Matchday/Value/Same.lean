/-
# Equality of values

Two values are the same when they stand for the same thing: numbers by exact value, whatever kind
of number they are, texts letter by letter, tuples and lists item by item and only among their own
kind, sets by what they hold and dictionaries by what they assign. So `1`, `1.0` and the rule
numbered one are the same, also inside tuples, while `1` and the text `1` are not. What is no number
is the same as itself, one and the same object, and as nothing else. This is how values are looked
up in lists, sets and dictionaries, and how the items of tuples are compared; two values that are
asked directly whether they are equal need to be equal to themselves besides (`equals`).

The comparison runs down the first value. Sets and dictionaries are compared by covering each by
the other, since their order of items does not count.
-/
import Matchday.Value

namespace Matchday
namespace Value

/-! ## 1. The comparison -/

/-- Both are numbers, of one value. -/
def sameNumber (v w : Value) : Bool :=
  match v.number?, w.number? with
  | some a, some b => a.same b
  | _, _ => false

mutual
/-- The two values stand for the same thing. -/
def same : Value → Value → Bool
  | .none, w => match w with | .none => true | _ => false
  | .bye, w => match w with | .bye => true | _ => false
  | .text s, w => match w with | .text t => s == t | _ => false
  | .tuple xs, w => match w with | .tuple ys => sameAll xs ys | _ => false
  | .list xs, w => match w with | .list ys => sameAll xs ys | _ => false
  | .set xs, w => match w with | .set ys => allAmong xs ys && ys.all (hasSame xs) | _ => false
  | .dict es, w =>
    match w with
    | .dict fs => entriesAmong es fs && fs.all fun f => hasEntry es f.1 f.2
    | _ => false
  | .bool b, w => sameNumber (.bool b) w
  | .int n, w => match w with | .int m => n == m | _ => sameNumber (.int n) w
  | .decimal d, w => sameNumber (.decimal d) w
  | .rule r, w => sameNumber (.rule r) w
  | .half h, w => sameNumber (.half h) w
termination_by structural v => v
/-- As many items, the same in each place. -/
def sameAll : List Value → List Value → Bool
  | [], ys => ys.isEmpty
  | x :: xs, ys => match ys with | y :: ys => same x y && sameAll xs ys | [] => false
termination_by structural xs => xs
/-- Every item of the first list has one the same in the second. -/
def allAmong : List Value → List Value → Bool
  | [], _ => true
  | x :: xs, ys => ys.any (same x) && allAmong xs ys
termination_by structural xs => xs
/-- An item of the list is the same. -/
def hasSame : List Value → Value → Bool
  | [], _ => false
  | x :: xs, y => same x y || hasSame xs y
termination_by structural xs => xs
/-- Every entry of the first list has one the same in the second. -/
def entriesAmong : List (Value × Value) → List (Value × Value) → Bool
  | [], _ => true
  | e :: es, fs => (fs.any fun f => sameEntry e f.1 f.2) && entriesAmong es fs
termination_by structural es => es
/-- An entry of the list has the same key and the same value. -/
def hasEntry : List (Value × Value) → Value → Value → Bool
  | [], _, _ => false
  | e :: es, k, v => sameEntry e k v || hasEntry es k v
termination_by structural es => es
/-- The same key and the same value. -/
def sameEntry : Value × Value → Value → Value → Bool
  | (l, w), k, v => same l k && same w v
termination_by structural e => e
end

instance : BEq Value := ⟨same⟩

/-- **Whole numbers are the same exactly when they are equal.** -/
@[simp] theorem beq_int (m n : Int) : (Value.int m == Value.int n) = (m == n) := rfl

/-! ## 2. Merging what is the same -/

/-- A dictionary with one more assignment: a key that is there already keeps its place and its
form, and takes the new value. -/
def assign : List (Value × Value) → Value → Value → List (Value × Value)
  | [], k, v => [(k, v)]
  | e :: es, k, v => if e.1 == k then (e.1, v) :: es else e :: assign es k v

/-- The dictionary of some assignments, made one after the other. -/
def ofEntries (entries : List (Value × Value)) : Value :=
  .dict (entries.foldl (fun es e => assign es e.1 e.2) [])

/-- Puts a number in front of the first one that is greater. -/
def insertNumber (n : Int × Value) : List (Int × Value) → List (Int × Value)
  | [] => [n]
  | m :: ms => if n.1 < m.1 then n :: m :: ms else m :: insertNumber n ms

/-- The order in which a set shows its items: natural numbers ascend, anything else stays in the
order in which it came. -/
def settled (items : List Value) : List Value :=
  match items.mapM fun v => v.whole?.bind fun n => if n < 0 then Option.none else some (n, v) with
  | some numbers => (numbers.foldl (fun ns n => insertNumber n ns) []).map (·.2)
  | Option.none => items

/-- The items of a set: the first of each that are the same. -/
def setItems (items : List Value) : List Value := settled items.eraseDups

end Value
end Matchday
