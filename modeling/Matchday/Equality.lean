/-
# Equality

Items are compared in two ways. Whoever looks for an item among others, or at its place in a tuple,
knows it again (`==`): there every item is the same as itself. Whoever asks of two items whether
they are equal (`equals`) gets the same answer, with an exception: some items are not equal even to
themselves. Which these are, a type of items has to say (`Equality`). Among values it is what is no
number.
-/
namespace Matchday

/-- Which items are equal to themselves. Items that are the same do not differ in this. -/
class Equality (α : Type) [BEq α] where
  toItself : α → Bool
  congr : ∀ {a b : α}, (a == b) = true → toItself a = toItself b

/-- The items are equal: the same, and equal to themselves. -/
def equals {α : Type} [BEq α] [Equality α] (a b : α) : Bool := a == b && Equality.toItself a

/-- Whole numbers are equal to themselves. -/
instance : Equality Nat where
  toItself _ := true
  congr _ := rfl

@[simp] theorem equals_nat (a b : Nat) : equals a b = (a == b) := Bool.and_true _

theorem equals_nat_self (n : Nat) : equals n n = true := by rw [equals_nat, BEq.rfl]

section Laws

variable {α : Type} [BEq α] [Equality α] {a b c : α}

theorem beq_of_equals (h : equals a b = true) : (a == b) = true := ((Bool.and_eq_true _ _).mp h).1

theorem equals_of_not_beq (h : (a == b) = false) : equals a b = false := by
  rw [equals, h, Bool.false_and]

variable [PartialEquivBEq α]

theorem equals_congr_left (h : (a == b) = true) (c : α) : equals a c = equals b c := by
  rw [equals, equals, BEq.congr_left h, Equality.congr h]

theorem equals_comm (a b : α) : equals a b = equals b a := by
  cases h : a == b with
  | false => rw [equals_of_not_beq h, equals_of_not_beq (BEq.comm.trans h)]
  | true => rw [equals, equals, h, BEq.symm h, Equality.congr h]

theorem equals_congr_right (h : (a == b) = true) (c : α) : equals c a = equals c b := by
  rw [equals_comm c a, equals_congr_left h, equals_comm b c]

/-- What is equal to something is equal to itself. -/
theorem equals_self_of_equals (h : equals a b = true) : equals b b = true := by
  rw [← equals_congr_left (beq_of_equals h)]
  exact h

/-- **For an item that is equal to itself, the two comparisons are one.** -/
theorem equals_eq_beq (hb : equals b b = true) (a : α) : equals a b = (a == b) := by
  cases h : a == b with
  | false => exact equals_of_not_beq h
  | true => rw [equals_congr_left h, hb]

end Laws
end Matchday
