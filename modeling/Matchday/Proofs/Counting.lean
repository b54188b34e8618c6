/-
# Counting

The counts of a schedule are sums over players and sums over turns, and most of them follow from
exchanging the two.  This module has the exchange (`sum_countP_comm`), what a sum of given length
says about its terms (`countP_zero_add_sum`, `eq_one_of_sum_eq_length`, `eq_one_of_le_one`), the
count of the only item of its sort (`countP_eq_one_of_unique`, `countP_beq_eq_one`), who is left
beside those named (`exists_of_length_lt_countP`), and how many numbers of a stretch are odd or even
(`countP_parity`).
-/
import Mathlib.Algebra.GroupWithZero.Nat
import Mathlib.Data.List.Perm.Subperm
import Matchday.Proofs.Distinct

namespace Matchday

variable {α β : Type}

/-! ## 1. Sums of counts -/

/-- **Double counting.**  Pairs that stand in a relation are counted from either side. -/
theorem sum_countP_comm (r : α → β → Bool) (xs : List α) (ys : List β) :
    (xs.map fun x => ys.countP (r x)).sum = (ys.map fun y => xs.countP (r · y)).sum := by
  induction xs with
  | nil =>
    have h : ys.map (fun y => ([] : List α).countP (r · y)) = ys.map fun _ => 0 := rfl
    rw [h, List.map_const', List.sum_replicate_nat]
    simp
  | cons x xs ih =>
    rw [List.map_cons, List.sum_cons, ih]
    clear ih
    induction ys with
    | nil => simp
    | cons y ys ih =>
      simp only [List.countP_cons, List.map_cons, List.sum_cons] at ih ⊢
      omega

/-- Equal terms. -/
theorem sum_map_eq_mul {f : α → Nat} {xs : List α} {k : Nat} (h : ∀ x ∈ xs, f x = k) :
    (xs.map f).sum = xs.length * k := by
  induction xs with
  | nil => simp
  | cons x xs ih =>
    rw [List.map_cons, List.sum_cons, h x List.mem_cons_self,
      ih fun y hy => h y (List.mem_cons_of_mem x hy), List.length_cons, Nat.succ_mul, Nat.add_comm]

/-- Terms that agree. -/
theorem sum_map_congr {f g : α → Nat} {xs : List α} (h : ∀ x ∈ xs, f x = g x) :
    (xs.map f).sum = (xs.map g).sum :=
  congrArg List.sum (List.map_congr_left h)

/-- The sum of truth values is their count. -/
theorem sum_map_ite_eq_countP (p : α → Bool) (xs : List α) :
    (xs.map fun x => if p x then 1 else 0).sum = xs.countP p := by
  induction xs with
  | nil => simp
  | cons x xs ih =>
    rw [List.map_cons, List.sum_cons, ih, List.countP_cons, Nat.add_comm]

/-- Terms of at most one: those that are zero make up for what the sum lacks. -/
theorem countP_zero_add_sum {f : α → Nat} {xs : List α} (h : ∀ x ∈ xs, f x ≤ 1) :
    xs.countP (f · == 0) + (xs.map f).sum = xs.length := by
  induction xs with
  | nil => simp
  | cons x xs ih =>
    have hx := h x List.mem_cons_self
    have hxs := ih fun y hy => h y (List.mem_cons_of_mem x hy)
    rw [List.countP_cons, List.map_cons, List.sum_cons, List.length_cons]
    by_cases h0 : f x = 0
    · simp only [h0, beq_self_eq_true, if_true]
      omega
    · have h1 : f x = 1 := by omega
      simp only [h1, Nat.reduceBEq, Bool.false_eq_true, if_false]
      omega

/-- Terms that are not zero are at least one. -/
theorem length_le_countP_zero_add_sum (f : α → Nat) (xs : List α) :
    xs.length ≤ xs.countP (f · == 0) + (xs.map f).sum := by
  induction xs with
  | nil => simp
  | cons x xs ih =>
    rw [List.countP_cons, List.map_cons, List.sum_cons, List.length_cons]
    by_cases h0 : f x = 0
    · simp only [h0, beq_self_eq_true, if_true]
      omega
    · omega

/-- At least one each makes at least as many. -/
theorem length_le_sum {f : α → Nat} {xs : List α} (h : ∀ x ∈ xs, 1 ≤ f x) :
    xs.length ≤ (xs.map f).sum := by
  induction xs with
  | nil => simp
  | cons x xs ih =>
    have hx := h x List.mem_cons_self
    have hxs := ih fun y hy => h y (List.mem_cons_of_mem x hy)
    rw [List.map_cons, List.sum_cons, List.length_cons]
    omega

/-- Terms of at least one that sum up to their number are all one. -/
theorem eq_one_of_sum_eq_length {f : α → Nat} {xs : List α} (h : ∀ x ∈ xs, 1 ≤ f x)
    (hsum : (xs.map f).sum = xs.length) : ∀ x ∈ xs, f x = 1 := by
  induction xs with
  | nil => exact fun x hx => absurd hx List.not_mem_nil
  | cons x xs ih =>
    have hx := h x List.mem_cons_self
    have hrest : ∀ y ∈ xs, 1 ≤ f y := fun y hy => h y (List.mem_cons_of_mem x hy)
    have hle := length_le_sum hrest
    rw [List.map_cons, List.sum_cons, List.length_cons] at hsum
    intro y hy
    rcases List.mem_cons.mp hy with rfl | hy
    · omega
    · exact ih hrest (by omega) y hy

/-- Terms of at most one that sum up to their number are all one. -/
theorem eq_one_of_le_one {f : α → Nat} {xs : List α} (h : ∀ x ∈ xs, f x ≤ 1)
    (hsum : (xs.map f).sum = xs.length) : ∀ x ∈ xs, f x = 1 := by
  have hnone : xs.countP (f · == 0) = 0 := by
    have hzero := countP_zero_add_sum h
    omega
  intro x hx
  have hne := List.countP_eq_zero.mp hnone x hx
  rw [beq_iff_eq] at hne
  have hle := h x hx
  omega

/-- Conditions that exclude each other are counted apart. -/
theorem countP_or_of_disjoint {p q : α → Bool} {xs : List α}
    (h : ∀ x ∈ xs, p x = true → q x = false) :
    (xs.countP fun x => p x || q x) = xs.countP p + xs.countP q := by
  induction xs with
  | nil => simp
  | cons x xs ih =>
    have hx := h x List.mem_cons_self
    rw [List.countP_cons, List.countP_cons, List.countP_cons,
      ih fun y hy => h y (List.mem_cons_of_mem x hy)]
    cases hp : p x with
    | false =>
      simp only [Bool.false_or, Bool.false_eq_true, if_false]
      omega
    | true =>
      simp only [hx hp, Bool.true_or, Bool.false_eq_true, if_true, if_false]
      omega

/-! ## 2. The only one of its sort -/

/-- An item that alone meets a condition, in a list without repetition, is counted once. -/
theorem countP_eq_one_of_unique {p : α → Bool} {xs : List α} (hnd : xs.Nodup) {x : α}
    (hx : x ∈ xs) (hp : ∀ y ∈ xs, p y = true ↔ y = x) : xs.countP p = 1 := by
  induction xs with
  | nil => exact absurd hx List.not_mem_nil
  | cons z xs ih =>
    obtain ⟨hz, hnd⟩ := List.nodup_cons.mp hnd
    rw [List.countP_cons]
    by_cases hzx : z = x
    · have hrest : xs.countP p = 0 := by
        refine List.countP_eq_zero.mpr fun y hy hpy => ?_
        have hyx := (hp y (List.mem_cons_of_mem z hy)).mp hpy
        exact hz (hzx ▸ hyx ▸ hy)
      rw [hrest, if_pos ((hp z List.mem_cons_self).mpr hzx)]
    · have hpz : ¬ p z = true := fun h => hzx ((hp z List.mem_cons_self).mp h)
      have hx' : x ∈ xs := (List.mem_cons.mp hx).resolve_left fun h => hzx h.symm
      rw [if_neg hpz, ih hnd hx' fun y hy => hp y (List.mem_cons_of_mem z hy)]

/-- A condition that no two items of a list without repetition meet is met at most once. -/
theorem countP_le_one {p : α → Bool} {xs : List α} (hnd : xs.Nodup)
    (hp : ∀ x ∈ xs, ∀ y ∈ xs, p x = true → p y = true → x = y) : xs.countP p ≤ 1 := by
  by_cases hx : ∃ x ∈ xs, p x = true
  · obtain ⟨x, hx, hpx⟩ := hx
    refine Nat.le_of_eq (countP_eq_one_of_unique hnd hx fun y hy => ⟨fun hpy => ?_, ?_⟩)
    · exact hp y hy x hx hpy hpx
    · rintro rfl
      exact hpx
  · have hzero : xs.countP p = 0 := List.countP_eq_zero.mpr fun x hx' hpx => hx ⟨x, hx', hpx⟩
    omega

/-- Of different items, one is the same as a given one of them. -/
theorem countP_beq_eq_one [BEq α] [EquivBEq α] {xs : List α} (h : AllDifferent xs) {x : α}
    (hx : x ∈ xs) : xs.countP (x == ·) = 1 := by
  induction xs with
  | nil => exact absurd hx List.not_mem_nil
  | cons y xs ih =>
    obtain ⟨hy, hxs⟩ := allDifferent_cons.mp h
    rw [List.countP_cons]
    rcases List.mem_cons.mp hx with rfl | hx
    · have hrest : xs.countP (x == ·) = 0 :=
        List.countP_eq_zero.mpr fun z hz => by rw [hy z hz]; simp
      rw [hrest, if_pos BEq.rfl]
    · have hxy : (x == y) = false := by rw [BEq.comm]; exact hy x hx
      rw [ih hxs hx, hxy]
      simp

/-- Of different items, at most one is the same as a given one. -/
theorem countP_beq_le_one [BEq α] [EquivBEq α] {xs : List α} (h : AllDifferent xs) (y : α) :
    xs.countP (y == ·) ≤ 1 := by
  refine countP_le_one h.nodup fun x hx z hz hxy hzy => h.eq_of_beq hx hz ?_
  exact BEq.trans (BEq.symm hxy) hzy

/-- Of different items, one is the same as a given one if any is. -/
theorem countP_beq_eq_ite [BEq α] [EquivBEq α] {xs : List α} (h : AllDifferent xs) (y : α) :
    xs.countP (y == ·) = if xs.contains y then 1 else 0 := by
  split
  · rename_i hy
    obtain ⟨x, hx, hyx⟩ := List.contains_iff_exists_mem_beq.mp hy
    exact Nat.le_antisymm (countP_beq_le_one h y) (List.countP_pos_iff.mpr ⟨x, hx, hyx⟩)
  · rename_i hy
    refine List.countP_eq_zero.mpr fun x hx hyx => hy ?_
    exact List.contains_iff_exists_mem_beq.mpr ⟨x, hx, hyx⟩

/-- As many as are named, at least, meet the condition if all of those named do. -/
theorem length_le_countP {p : α → Bool} {ws : List α} (hnd : ws.Nodup) (xs : List α)
    (hws : ∀ w ∈ ws, w ∈ xs ∧ p w = true) : ws.length ≤ xs.countP p := by
  rw [List.countP_eq_length_filter]
  exact (List.subperm_of_subset hnd fun w hw => List.mem_filter.mpr (hws w hw)).length_le

/-- **Somebody is left.**  Of different items, more meet the condition than are named, so one of
those who meet it is not named. -/
theorem exists_of_length_lt_countP [BEq α] [EquivBEq α] {xs : List α} (h : AllDifferent xs)
    (ys : List α) {p : α → Bool} (hlt : ys.length < xs.countP p) :
    ∃ x ∈ xs, p x = true ∧ ∀ y ∈ ys, (x == y) = false := by
  induction ys generalizing p with
  | nil =>
    obtain ⟨x, hx, hpx⟩ := List.countP_pos_iff.mp hlt
    exact ⟨x, hx, hpx, fun y hy => absurd hy List.not_mem_nil⟩
  | cons y ys ih =>
    -- at most one of those who meet the condition is the first one named
    have hsplit : xs.countP p ≤ xs.countP (fun x => p x && !(x == y)) + xs.countP (y == ·) := by
      have hle : xs.countP p ≤ xs.countP fun x => (p x && !(x == y)) || (y == x) := by
        refine List.countP_mono_left fun x _ hpx => ?_
        cases hxy : x == y <;> simp [hpx, hxy, BEq.comm (a := y)]
      refine Nat.le_trans hle (Nat.le_of_eq (countP_or_of_disjoint fun x _ hx => ?_))
      have hxy := (Bool.and_eq_true _ _ |>.mp hx).2
      rw [BEq.comm]
      simpa using hxy
    have hone := countP_beq_le_one h y
    rw [List.length_cons] at hlt
    obtain ⟨x, hx, hpx, hys⟩ := ih (p := fun x => p x && !(x == y)) (by omega)
    obtain ⟨hpx, hxy⟩ := Bool.and_eq_true _ _ |>.mp hpx
    refine ⟨x, hx, hpx, fun z hz => ?_⟩
    rcases List.mem_cons.mp hz with rfl | hz
    · simpa using hxy
    · exact hys z hz

/-- Conditions that differ at one of several different items at most are counted alike, that item
apart. -/
theorem countP_add_of_differ [BEq α] [EquivBEq α] {xs : List α} (h : AllDifferent xs) {v : α}
    (hv : v ∈ xs) {p q : α → Bool} (hpq : ∀ x ∈ xs, (v == x) = false → p x = q x) :
    xs.countP p + (if q v then 1 else 0) = xs.countP q + (if p v then 1 else 0) := by
  induction xs with
  | nil => exact absurd hv List.not_mem_nil
  | cons x xs ih =>
    obtain ⟨hx, hxs⟩ := allDifferent_cons.mp h
    rw [List.countP_cons, List.countP_cons]
    rcases List.mem_cons.mp hv with rfl | hv
    · have hrest : xs.countP p = xs.countP q :=
        List.countP_congr fun y hy => by rw [hpq y (List.mem_cons_of_mem v hy) (hx y hy)]
      omega
    · have hne : (v == x) = false := by rw [BEq.comm]; exact hx v hv
      have ih := ih hxs hv fun y hy => hpq y (List.mem_cons_of_mem x hy)
      rw [hpq x List.mem_cons_self hne]
      omega

/-! ## 3. Odd and even numbers -/

/-- Of the numbers from `s` on, every other one leaves the remainder `a`. -/
theorem countP_parity {a : Nat} (ha : a < 2) (s n : Nat) :
    (List.range' s n).countP (· % 2 == a) = (n + if s % 2 = a then 1 else 0) / 2 := by
  induction n generalizing s with
  | zero => split <;> simp
  | succ n ih =>
    rw [List.range'_succ, List.countP_cons, ih (s + 1)]
    by_cases h : s % 2 = a
    · have h' : ¬ (s + 1) % 2 = a := by omega
      simp only [h, h', beq_self_eq_true, if_true, if_false]
      omega
    · have h' : (s + 1) % 2 = a := by omega
      simp only [h, h', beq_iff_eq, if_true, if_false]
      omega

end Matchday
