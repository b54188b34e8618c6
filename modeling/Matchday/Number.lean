/-
# Numbers

Whole numbers and decimals are compared by the number that they are. It is a fraction with a power
of two below, and comparison multiplies it out, so that nothing is rounded: a whole number that no
decimal can be is the same as none. Beyond all fractions there are two infinities.

Besides, there is what is no number, the outcome of a calculation that has none. It has no place
before or behind anything. All that can be known of it is which object it is, and the same as
another one is it only as one and the same object.
-/
namespace Matchday

/-- The number that a value is. -/
inductive Number where
  /-- The fraction `units / 2 ^ places`. -/
  | fraction (units : Int) (places : Nat)
  | infinite (negative : Bool)
  /-- What is no number, the object with this mark. -/
  | noNumber (object : Nat)

namespace Number

/-- A power of two. -/
def twos (k : Nat) : Nat := Nat.pow 2 k

/-- A whole number. -/
def ofInt (n : Int) : Number := fraction n 0

/-- Equal in value, or one and the same object that is no number. -/
def same : Number → Number → Bool
  | fraction m j, fraction n k => m * twos k == n * twos j
  | infinite negative, infinite negative' => negative == negative'
  | noNumber object, noNumber object' => object == object'
  | _, _ => false

/-- Smaller in value. -/
def less : Number → Number → Bool
  | fraction m j, fraction n k => m * twos k < n * twos j
  | infinite negative, fraction _ _ => negative
  | fraction _ _, infinite negative => !negative
  | infinite negative, infinite negative' => negative && !negative'
  | noNumber _, _ | _, noNumber _ => false

/-- The whole number next to it on the side of zero. -/
def truncated? : Number → Option Int
  | fraction m j => some (m.tdiv (twos j))
  | _ => none

/-- Whole numbers are the same number exactly when they are equal. -/
@[simp] theorem same_ofInt (a b : Int) : same (ofInt a) (ofInt b) = (a == b) := by
  simp [same, ofInt, twos]

/-- The order of whole numbers is kept. -/
@[simp] theorem less_ofInt (a b : Int) : less (ofInt a) (ofInt b) = decide (a < b) := by
  simp [less, ofInt, twos]

/-- A number has the value of itself. -/
theorem same_self (a : Number) : a.same a = true := by cases a <;> simp [same]

/-- Sameness of numbers is symmetric. -/
theorem same_symm {a b : Number} (h : a.same b = true) : b.same a = true := by
  cases a <;> cases b <;> simp_all [same]

/-- **Sameness of numbers is transitive**: the middle power of two cancels. -/
theorem same_trans {a b c : Number} (hab : a.same b = true) (hbc : b.same c = true) :
    a.same c = true := by
  cases b with
  | infinite | noNumber => cases a <;> cases c <;> simp_all [same]
  | fraction n k =>
    cases a with
    | infinite | noNumber => cases hab
    | fraction m j =>
      cases c with
      | infinite | noNumber => cases hbc
      | fraction o l =>
        simp only [same, beq_iff_eq] at *
        have hpos : 0 < twos k := Nat.pow_pos (by decide)
        refine Int.eq_of_mul_eq_mul_right (a := (twos k : Int)) (by omega) ?_
        calc m * twos l * twos k
            = (m * twos k) * twos l := by
              rw [Int.mul_assoc, Int.mul_comm (twos l : Int), ← Int.mul_assoc]
          _ = (n * twos l) * twos j := by
              rw [hab, Int.mul_assoc, Int.mul_comm (twos j : Int), ← Int.mul_assoc]
          _ = o * twos j * twos k := by
              rw [hbc, Int.mul_assoc, Int.mul_comm (twos k : Int), ← Int.mul_assoc]

end Number
end Matchday
