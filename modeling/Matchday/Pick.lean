/-
# Picking the best

Of some candidates the one with the least, or the greatest, measure is picked; among equals the
one that stands first. The candidates are gone through from the end, so that an earlier one takes
the place of a later one that is no better; the measure of the best so far is kept beside it.
-/
namespace Matchday.Pick

variable {α : Type}

/-- The best candidate with its measure, where an earlier one wins if its measure is as good. -/
def best (asGood : Nat → Nat → Bool) (f : α → Nat) : List α → Option (Nat × α)
  | [] => none
  | x :: xs =>
    let n := f x
    match best asGood f xs with
    | none => some (n, x)
    | some (k, y) => if asGood n k then some (n, x) else some (k, y)

/-- The first candidate with the least measure. -/
def least (f : α → Nat) (xs : List α) : Option α := (best (fun n k => n ≤ k) f xs).map (·.2)

/-- The first candidate with the greatest measure. -/
def greatest (f : α → Nat) (xs : List α) : Option α := (best (fun n k => k ≤ n) f xs).map (·.2)

/-- A candidate is picked unless there is none. -/
theorem best_eq_none_iff (asGood : Nat → Nat → Bool) (f : α → Nat) (xs : List α) :
    best asGood f xs = none ↔ xs = [] := by
  cases xs with
  | nil => simp [best]
  | cons x xs => simp only [best, reduceCtorEq, iff_false]; split <;> (try split) <;> simp

@[simp] theorem least_eq_none_iff (f : α → Nat) (xs : List α) : least f xs = none ↔ xs = [] := by
  simp [least, best_eq_none_iff]

@[simp] theorem greatest_eq_none_iff (f : α → Nat) (xs : List α) :
    greatest f xs = none ↔ xs = [] := by
  simp [greatest, best_eq_none_iff]

end Matchday.Pick
