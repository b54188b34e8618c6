/-
# Sorting

A leg is read turn by turn, and its turns are sorted.  Two orders are at work there.

The turns are values, and values are sorted as far as they have an order.  Whole numbers always have
one, whichever kind of whole number they are: it is that of their numerals (`before?_of_isWhole`).
Of different whole numbers `Value.sort?` makes a strictly ascending list (`exists_sort`).

The pairings are meant to be in the order of their turns, and where turns are equal in the order in
which they came.  That is a stable sort (`stableSort`).  Sorted lists are the same if they have the
same items of each key in the same order (`eq_of_ofKey_eq`), so a stable sort is also what comes out
when the items are gathered key by key (`flatMap_ofKey_eq_stableSort`).
-/
import Mathlib.Data.List.Basic
import Matchday.Proofs.Distinct
import Matchday.Value.Equivalence
import Matchday.Value.Order

namespace Matchday

/-! ## 1. Sorting by a key -/

section Key

variable {α : Type} {key : α → Int} {xs ys : List α}

/-- The first item has no greater key than the second. -/
def keyLE (key : α → Int) (x y : α) : Bool := decide (key x ≤ key y)

theorem keyLE_iff {x y : α} : keyLE key x y = true ↔ key x ≤ key y := decide_eq_true_iff

theorem keyLE_trans (x y z : α) (hxy : keyLE key x y = true) (hyz : keyLE key y z = true) :
    keyLE key x z = true :=
  keyLE_iff.mpr (Int.le_trans (keyLE_iff.mp hxy) (keyLE_iff.mp hyz))

theorem keyLE_total (x y : α) : (keyLE key x y || keyLE key y x) = true := by
  rw [Bool.or_eq_true, keyLE_iff, keyLE_iff]
  exact Int.le_total _ _

/-- The items in the order of their keys, and where keys are equal in their own order. -/
def stableSort (key : α → Int) (xs : List α) : List α := xs.mergeSort (keyLE key)

theorem stableSort_perm (key : α → Int) (xs : List α) : (stableSort key xs).Perm xs :=
  List.mergeSort_perm xs _

theorem pairwise_stableSort (key : α → Int) (xs : List α) :
    (stableSort key xs).Pairwise fun x y => key x ≤ key y :=
  (List.pairwise_mergeSort keyLE_trans keyLE_total xs).imp keyLE_iff.mp

/-- Nothing is moved where the keys ascend already. -/
theorem stableSort_eq_self (h : xs.Pairwise fun x y => key x ≤ key y) : stableSort key xs = xs :=
  List.mergeSort_of_pairwise (h.imp keyLE_iff.mpr)

/-- The items of one key, in their own order. -/
def ofKey (key : α → Int) (k : Int) (xs : List α) : List α := xs.filter (key · == k)

theorem mem_ofKey {k : Int} {x : α} : x ∈ ofKey key k xs ↔ x ∈ xs ∧ key x = k := by
  rw [ofKey, List.mem_filter, beq_iff_eq]

/-- **The sort is stable**: the items of a key stay in their order. -/
theorem ofKey_stableSort (key : α → Int) (k : Int) (xs : List α) :
    ofKey key k (stableSort key xs) = ofKey key k xs := by
  have hequal : (ofKey key k xs).Pairwise fun x y => keyLE key x y = true := by
    refine List.pairwise_of_forall_mem_list fun x hx y hy => keyLE_iff.mpr (Int.le_of_eq ?_)
    exact (mem_ofKey.mp hx).2.trans (mem_ofKey.mp hy).2.symm
  have hsub : (ofKey key k xs).Sublist (stableSort key xs) :=
    List.sublist_mergeSort keyLE_trans keyLE_total hequal List.filter_sublist
  -- they are a part of those that are there after sorting, and these are no more than before
  have hpart : (ofKey key k xs).Sublist (ofKey key k (stableSort key xs)) := by
    have hfilter := hsub.filter (key · == k)
    rwa [ofKey, List.filter_filter, funext fun x => Bool.and_self (key x == k)] at hfilter
  exact (hpart.eq_of_length ((stableSort_perm key xs).symm.filter _).length_eq).symm

theorem mem_iff_of_ofKey_eq (h : ∀ k, ofKey key k xs = ofKey key k ys) {x : α} :
    x ∈ xs ↔ x ∈ ys := by
  have hx : x ∈ ofKey key (key x) xs ↔ x ∈ ofKey key (key x) ys := by rw [h]
  rwa [mem_ofKey, mem_ofKey, and_iff_left rfl, and_iff_left rfl] at hx

/-- The head of a sorted list has the least key. -/
theorem key_head_le {x : α} (h : (x :: xs).Pairwise fun x y => key x ≤ key y) {y : α}
    (hy : y ∈ x :: xs) : key x ≤ key y := by
  rcases List.mem_cons.mp hy with rfl | hy
  · exact Int.le_refl _
  · exact List.rel_of_pairwise_cons h hy

/-- **A sorted list is told by its items of each key.** -/
theorem eq_of_ofKey_eq (hx : xs.Pairwise fun x y => key x ≤ key y)
    (hy : ys.Pairwise fun x y => key x ≤ key y) (h : ∀ k, ofKey key k xs = ofKey key k ys) :
    xs = ys := by
  induction xs generalizing ys with
  | nil =>
    exact (List.eq_nil_iff_forall_not_mem.mpr fun y hy =>
      List.not_mem_nil ((mem_iff_of_ofKey_eq h).mpr hy)).symm
  | cons x xs ih =>
    cases ys with
    | nil => exact absurd ((mem_iff_of_ofKey_eq h).mp List.mem_cons_self) List.not_mem_nil
    | cons y ys =>
      -- both heads have the least key, so each is the first of that key in its list
      have hkey : key x = key y :=
        Int.le_antisymm (key_head_le hx ((mem_iff_of_ofKey_eq h).mpr List.mem_cons_self))
          (key_head_le hy ((mem_iff_of_ofKey_eq h).mp List.mem_cons_self))
      obtain ⟨rfl, -⟩ : x = y ∧ ofKey key (key x) xs = ofKey key (key x) ys := by
        have hheads := h (key x)
        rw [ofKey, ofKey, List.filter_cons, List.filter_cons, if_pos (beq_self_eq_true (key x)),
          if_pos (beq_iff_eq.mpr hkey.symm)] at hheads
        exact List.cons.inj hheads
      refine congrArg (x :: ·) (ih hx.of_cons hy.of_cons fun k => ?_)
      have hk := h k
      rw [ofKey, ofKey, List.filter_cons, List.filter_cons] at hk
      split at hk
      · exact (List.cons.inj hk).2
      · exact hk

/-- Of different keys each gathers its items once. -/
theorem ofKey_flatMap {ks : List Int} (hks : ks.Nodup) (k : Int) (xs : List α) :
    ofKey key k (ks.flatMap fun l => ofKey key l xs) = if k ∈ ks then ofKey key k xs else [] := by
  induction ks with
  | nil => rfl
  | cons l ks ih =>
    obtain ⟨hl, hks⟩ := List.nodup_cons.mp hks
    rw [List.flatMap_cons, ofKey, List.filter_append, ← ofKey, ← ofKey, ih hks]
    by_cases hkl : k = l
    · subst hkl
      have hself : ofKey key k (ofKey key k xs) = ofKey key k xs :=
        List.filter_eq_self.mpr fun x hx => beq_iff_eq.mpr (mem_ofKey.mp hx).2
      rw [hself, if_neg hl, if_pos List.mem_cons_self, List.append_nil]
    · have hother : ofKey key k (ofKey key l xs) = [] :=
        List.filter_eq_nil_iff.mpr fun x hx hk =>
          hkl ((beq_iff_eq.mp hk).symm.trans (mem_ofKey.mp hx).2)
      rw [hother, List.nil_append]
      simp only [List.mem_cons, hkl, false_or]

/-- **Gathering the items key by key sorts them**, if the keys ascend and none is missing. -/
theorem flatMap_ofKey_eq_stableSort {ks : List Int} (hks : ks.Pairwise (· < ·))
    (hall : ∀ x ∈ xs, key x ∈ ks) :
    (ks.flatMap fun k => ofKey key k xs) = stableSort key xs := by
  refine eq_of_ofKey_eq ?_ (pairwise_stableSort key xs) fun k => ?_
  · refine List.pairwise_flatMap.mpr ⟨fun k _ => ?_, hks.imp fun {k l} hkl x hx y hy => ?_⟩
    · refine List.pairwise_of_forall_mem_list fun x hx y hy => Int.le_of_eq ?_
      exact (mem_ofKey.mp hx).2.trans (mem_ofKey.mp hy).2.symm
    · rw [(mem_ofKey.mp hx).2, (mem_ofKey.mp hy).2]
      exact Int.le_of_lt hkl
  · rw [ofKey_stableSort, ofKey_flatMap (hks.imp Int.ne_of_lt)]
    split
    · rfl
    · rename_i hk
      refine (List.filter_eq_nil_iff.mpr fun x hx hkey => hk ?_).symm
      rw [← beq_iff_eq.mp hkey]
      exact hall x hx

end Key

/-! ## 2. Sorting whole numbers -/

namespace Value

variable {v w : Value} {vs : List Value}

/-- The value is a whole number, of whichever kind. -/
def IsWhole (v : Value) : Prop := v.whole?.isSome = true

instance (v : Value) : Decidable v.IsWhole := inferInstanceAs (Decidable (_ = true))

/-- The whole number that a value is, or zero. -/
def numeral (v : Value) : Int := v.whole?.getD 0

theorem number?_of_isWhole (h : v.IsWhole) : v.number? = some (.ofInt v.numeral) := by
  cases v with
  | bool | int | rule | half => rfl
  | _ => cases h

/-- Whole numbers are equal to themselves. -/
theorem equals_self_of_isWhole (h : v.IsWhole) : equals v v = true := by
  refine equals_self_iff.mpr fun d hd => ?_
  rw [hd] at h
  cases h

/-- **Whole numbers are the same when their numerals are.** -/
theorem beq_eq_numeral (hv : v.IsWhole) (hw : w.IsWhole) : (v == w) = (v.numeral == w.numeral) := by
  have hsome : v.number?.isSome = true := by
    rw [number?_of_isWhole hv]
    rfl
  calc (v == w) = sameNumber v w := same_of_number hsome
    _ = (Number.ofInt v.numeral).same (.ofInt w.numeral) := by
      rw [sameNumber, number?_of_isWhole hv, number?_of_isWhole hw]
    _ = (v.numeral == w.numeral) := Number.same_ofInt _ _

/-- **Whole numbers have the order of their numerals.** -/
theorem before?_of_isWhole (hv : v.IsWhole) (hw : w.IsWhole) :
    before? v w = some (decide (v.numeral < w.numeral)) := by
  have hnumber : before? v w = numberBefore? v w := by
    cases v with
    | bool | int | rule | half => rw [before?]
    | _ => cases hv
  rw [hnumber, numberBefore?, number?_of_isWhole hv, number?_of_isWhole hw]
  exact congrArg some (Number.less_ofInt _ _)

/-- **Strictly ascending** whole numbers. -/
def Ascending (vs : List Value) : Prop := vs.Pairwise fun v w => v.numeral < w.numeral

/-- A whole number finds its place among others that it differs from. -/
theorem exists_insertBefore (hv : v.IsWhole) (hvs : ∀ w ∈ vs, w.IsWhole) (hasc : Ascending vs)
    (hnew : ∀ w ∈ vs, (v == w) = false) :
    ∃ us, insertBefore? v vs = some us ∧ us.Perm (v :: vs) ∧ Ascending us := by
  induction vs with
  | nil => exact ⟨[v], rfl, List.Perm.refl _, List.pairwise_singleton _ v⟩
  | cons w vs ih =>
    have hw := hvs w List.mem_cons_self
    obtain ⟨hfirst, hrest⟩ := List.pairwise_cons.mp hasc
    have hne : v.numeral ≠ w.numeral := by
      have hdiff := hnew w List.mem_cons_self
      rw [beq_eq_numeral hv hw] at hdiff
      exact ne_of_beq_false hdiff
    rw [insertBefore?, before?_of_isWhole hv hw]
    by_cases hlt : v.numeral < w.numeral
    · refine ⟨v :: w :: vs, ?_, List.Perm.refl _, List.pairwise_cons.mpr ⟨?_, hasc⟩⟩
      · rw [decide_eq_true hlt]
        rfl
      · intro u hu
        rcases List.mem_cons.mp hu with rfl | hu
        · exact hlt
        · exact Int.lt_trans hlt (hfirst u hu)
    · obtain ⟨us, hus, hperm, husasc⟩ := ih (fun u hu => hvs u (List.mem_cons_of_mem w hu)) hrest
        fun u hu => hnew u (List.mem_cons_of_mem w hu)
      refine ⟨w :: us, ?_, (hperm.cons w).trans (List.Perm.swap v w vs),
        List.pairwise_cons.mpr ⟨fun u hu => ?_, husasc⟩⟩
      · rw [decide_eq_false hlt, hus]
        rfl
      · rcases List.mem_cons.mp (hperm.mem_iff.mp hu) with rfl | hu
        · omega
        · exact hfirst u hu

/-- **Different whole numbers are sorted.** -/
theorem exists_sort (hvs : ∀ v ∈ vs, v.IsWhole) (hd : AllDifferent vs) :
    ∃ us, sort? vs = some us ∧ us.Perm vs ∧ Ascending us := by
  have hcompared : (vs.all fun v => vs.all fun w => v == w || (before? v w).isSome) = true := by
    refine List.all_eq_true.mpr fun v hv => List.all_eq_true.mpr fun w hw => ?_
    rw [before?_of_isWhole (hvs v hv) (hvs w hw), Option.isSome_some, Bool.or_true]
  have hinserted : ∃ us, vs.foldrM insertBefore? [] = some us ∧ us.Perm vs ∧ Ascending us := by
    clear hcompared
    induction vs with
    | nil => exact ⟨[], rfl, List.Perm.refl [], List.Pairwise.nil⟩
    | cons v vs ih =>
      obtain ⟨hv, hd⟩ := allDifferent_cons.mp hd
      obtain ⟨us, hus, hperm, hasc⟩ := ih (fun w hw => hvs w (List.mem_cons_of_mem v hw)) hd
      obtain ⟨ts, hts, hperm', hasc'⟩ := exists_insertBefore (hvs v List.mem_cons_self)
        (fun w hw => hvs w (List.mem_cons_of_mem v (hperm.mem_iff.mp hw))) hasc
        fun w hw => hv w (hperm.mem_iff.mp hw)
      refine ⟨ts, ?_, hperm'.trans (hperm.cons v), hasc'⟩
      rw [List.foldrM_cons, hus]
      exact hts
  rw [sort?, if_pos hcompared]
  exact hinserted

end Value
end Matchday
