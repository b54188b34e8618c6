/-
# Lists without repetition

Participants and turns are told apart by `==`, which need not be equality.  `AllDifferent` says
that no two places of a list hold the same, and `List.eraseDups` keeps the first of each.  This
module collects what later counts rest on:

* erasing repetitions leaves a sublist of different items that still holds everything
  (`eraseDups_sublist`, `allDifferent_eraseDups`, `any_beq_eraseDups`), and it changes nothing
  exactly when the items were different (`length_eraseDups_iff`);
* it commutes with a renaming that keeps different items different (`eraseDups_map`).

A list of different items gives each of them a place of its own (`beq_idxOf_iff`,
`AllDifferent.idxOf_getElem`).
-/
import Mathlib.Data.List.Basic

namespace Matchday

variable {α β : Type} [BEq α] [BEq β]

/-! ## 1. Different items -/

/-- No two items of the list are the same. -/
def AllDifferent (xs : List α) : Prop := xs.Pairwise fun x y => (x == y) = false

instance (xs : List α) : Decidable (AllDifferent xs) :=
  inferInstanceAs (Decidable (xs.Pairwise _))

theorem allDifferent_cons {x : α} {xs : List α} :
    AllDifferent (x :: xs) ↔ (∀ y ∈ xs, (x == y) = false) ∧ AllDifferent xs :=
  List.pairwise_cons

/-- Where `==` is equality, different items are what `Nodup` says. -/
theorem allDifferent_iff_nodup [LawfulBEq α] {xs : List α} : AllDifferent xs ↔ xs.Nodup := by
  unfold AllDifferent List.Nodup
  constructor
  · exact fun h => h.imp fun hxy => by simpa using hxy
  · exact fun h => h.imp fun hxy => by simpa using hxy

theorem allDifferent_range (n : Nat) : AllDifferent (List.range n) :=
  allDifferent_iff_nodup.mpr List.nodup_range

/-! ## 2. Erasing repetitions -/

/-- **Induction along the erasing.**  After its first item, what is erased next is the rest of the
list without the repetitions of that item. -/
theorem eraseDups_induction {P : List α → Prop} (nil : P [])
    (cons : ∀ x xs, P (xs.filter fun y => !y == x) → P (x :: xs)) : ∀ xs, P xs
  | [] => nil
  | x :: xs => cons x xs (eraseDups_induction nil cons (xs.filter fun y => !y == x))
termination_by xs => xs.length
decreasing_by exact Nat.lt_succ_of_le (List.length_filter_le _ xs)

theorem eraseDups_sublist (xs : List α) : xs.eraseDups.Sublist xs := by
  induction xs using eraseDups_induction with
  | nil => simp
  | cons x xs ih =>
    rw [List.eraseDups_cons]
    exact (ih.trans List.filter_sublist).cons_cons x

/-- **Erasing repetitions commutes with renaming**, if the renaming tells apart whatever it is
given and nothing else. -/
theorem eraseDups_map {g : α → β} {xs : List α}
    (hg : ∀ x ∈ xs, ∀ y ∈ xs, (g x == g y) = (x == y)) :
    (xs.map g).eraseDups = xs.eraseDups.map g := by
  induction xs using eraseDups_induction with
  | nil => simp
  | cons x xs ih =>
    have hf : (xs.map g).filter (fun y => !y == g x) = (xs.filter fun y => !y == x).map g := by
      rw [List.filter_map]
      refine congrArg (List.map g) (List.filter_congr fun y hy => ?_)
      simp [hg y (List.mem_cons_of_mem x hy) x List.mem_cons_self]
    have hrest : ∀ y ∈ xs.filter (fun y => !y == x), y ∈ x :: xs :=
      fun y hy => List.mem_cons_of_mem x (List.mem_of_mem_filter hy)
    rw [List.map_cons, List.eraseDups_cons, List.eraseDups_cons, hf, List.map_cons,
      ih fun y hy z hz => hg y (hrest y hy) z (hrest z hz)]

/-- Whatever is the same as some item has a place. -/
theorem idxOf_lt_of_any {x : α} {xs : List α} (h : xs.any (· == x) = true) :
    xs.idxOf x < xs.length := by
  obtain ⟨y, hy, hyx⟩ := List.any_eq_true.mp h
  exact List.findIdx_lt_length_of_exists ⟨y, hy, hyx⟩

/-- The item in the place of another one is the same. -/
theorem getElem_idxOf_beq {x : α} {xs : List α} (hlt : xs.idxOf x < xs.length) :
    (xs[xs.idxOf x] == x) = true :=
  List.findIdx_getElem (p := (· == x)) (w := hlt)

section Same

variable [EquivBEq α]

/-- What was there is still there, up to sameness. -/
theorem any_beq_eraseDups (y : α) (xs : List α) :
    (xs.eraseDups.any (· == y)) = xs.any (· == y) := by
  induction xs using eraseDups_induction with
  | nil => simp
  | cons x xs ih =>
    rw [List.eraseDups_cons, List.any_cons, List.any_cons, ih]
    cases hxy : x == y with
    | true => simp
    | false =>
      -- an item that is the same as `y` is not the same as `x`, so the filter keeps it
      rw [Bool.false_or, Bool.false_or, List.any_filter]
      refine List.any_congr rfl fun z => ?_
      cases hzy : z == y with
      | false => simp
      | true =>
        have hzx : (z == x) = false := by
          rw [BEq.congr_left hzy, BEq.comm, hxy]
        simp [hzx]

/-- No two of what is left are the same. -/
theorem allDifferent_eraseDups (xs : List α) : AllDifferent xs.eraseDups := by
  induction xs using eraseDups_induction with
  | nil => simp [AllDifferent]
  | cons x xs ih =>
    rw [List.eraseDups_cons]
    refine allDifferent_cons.mpr ⟨fun y hy => ?_, ih⟩
    have hyx := (List.mem_filter.mp ((eraseDups_sublist _).subset hy)).2
    rw [BEq.comm]
    simpa using hyx

/-- Different items are all kept. -/
theorem AllDifferent.eraseDups_eq {xs : List α} (h : AllDifferent xs) : xs.eraseDups = xs := by
  induction xs with
  | nil => simp
  | cons x xs ih =>
    obtain ⟨hx, hxs⟩ := allDifferent_cons.mp h
    have hf : xs.filter (fun y => !y == x) = xs := by
      refine List.filter_eq_self.mpr fun y hy => ?_
      rw [BEq.comm, hx y hy]
      rfl
    rw [List.eraseDups_cons, hf, ih hxs]

/-- **Nothing is erased exactly when all items are different.** -/
theorem length_eraseDups_iff {xs : List α} : xs.eraseDups.length = xs.length ↔ AllDifferent xs := by
  constructor
  · intro h
    have hs : xs.eraseDups = xs := (eraseDups_sublist xs).eq_of_length h
    exact hs ▸ allDifferent_eraseDups xs
  · exact fun h => congrArg List.length h.eraseDups_eq

/-- A new item may come last. -/
theorem AllDifferent.concat {xs : List α} (h : AllDifferent xs) {x : α}
    (hx : ∀ y ∈ xs, (x == y) = false) : AllDifferent (xs ++ [x]) := by
  refine List.pairwise_append.mpr ⟨h, List.pairwise_singleton _ x, fun y hy z hz => ?_⟩
  rw [List.mem_singleton.mp hz, BEq.comm]
  exact hx y hy

/-- In a list of different items, two of them are the same only if they are one. -/
theorem AllDifferent.eq_of_beq {xs : List α} (h : AllDifferent xs) {x y : α} (hx : x ∈ xs)
    (hy : y ∈ xs) (hxy : (x == y) = true) : x = y := by
  obtain ⟨i, hi, rfl⟩ := List.getElem_of_mem hx
  obtain ⟨j, hj, rfl⟩ := List.getElem_of_mem hy
  have hdiff := List.pairwise_iff_getElem.mp h
  rcases Nat.lt_trichotomy i j with hlt | rfl | hgt
  · rw [hdiff i j hi hj hlt] at hxy
    cases hxy
  · rfl
  · rw [BEq.comm, hdiff j i hj hi hgt] at hxy
    cases hxy

/-! ## 3. Places -/

theorem AllDifferent.nodup {xs : List α} (h : AllDifferent xs) : xs.Nodup := by
  refine List.Pairwise.imp ?_ h
  rintro x _ hxx rfl
  rw [BEq.rfl] at hxx
  cases hxx

/-- What is the same has the same place. -/
theorem idxOf_congr {x y : α} (h : (x == y) = true) (xs : List α) : xs.idxOf x = xs.idxOf y := by
  have hsame : (fun z => z == x) = fun z => z == y := funext fun z => BEq.congr_right h
  unfold List.idxOf
  rw [hsame]

/-- Items have the same place only if they are the same. -/
theorem beq_idxOf_iff {x y : α} {xs : List α} (hx : xs.any (· == x) = true)
    (hy : xs.any (· == y) = true) : (xs.idxOf x == xs.idxOf y) = (x == y) := by
  rw [Bool.eq_iff_iff, beq_iff_eq]
  refine ⟨fun h => ?_, fun h => idxOf_congr h xs⟩
  have hi := getElem_idxOf_beq (idxOf_lt_of_any hx)
  have hj := getElem_idxOf_beq (idxOf_lt_of_any hy)
  simp only [h] at hi
  exact BEq.trans (BEq.symm hi) hj

/-- Different items stand at their own places. -/
theorem AllDifferent.idxOf_getElem {xs : List α} (h : AllDifferent xs) {i : Nat}
    (hi : i < xs.length) : xs.idxOf xs[i] = i := by
  refine (List.findIdx_eq hi).mpr ⟨BEq.rfl, fun j hj => ?_⟩
  exact List.pairwise_iff_getElem.mp h j i (by omega) hi hj

end Same

/-- In an ascending list of different numbers, smaller ones stand first. -/
theorem idxOf_le_idxOf {ns : List Nat} (h : ns.Pairwise (· < ·)) {a b : Nat} (ha : a ∈ ns)
    (hb : b ∈ ns) (hab : a ≤ b) : ns.idxOf a ≤ ns.idxOf b := by
  refine Nat.le_of_not_lt fun hlt => ?_
  have hi := List.idxOf_lt_length_of_mem ha
  have hj := List.idxOf_lt_length_of_mem hb
  have hba := List.pairwise_iff_getElem.mp h _ _ hj hi hlt
  rw [List.getElem_idxOf, List.getElem_idxOf] at hba
  omega

end Matchday
