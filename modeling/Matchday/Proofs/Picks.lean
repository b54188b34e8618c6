/-
# What is picked

A pick is one of the candidates (`mem_of_least`, `mem_of_greatest`), and none of the others has a
smaller measure than the least (`le_of_least`).  Among equally good ones the first is picked
(`least_eq_some_iff`, `isFirstGreatest_of_greatest`), whatever the measures are compared by
(`exists_split_of_best`).  There is one first candidate that meets a condition, if any does
(`exists_isFirst`, `IsFirst.unique`).
Candidates under other names are picked by the same measures (`least_map`, `greatest_map`).
-/
import Matchday.Pick

namespace Matchday.Pick

variable {α β : Type}

/-- The best candidate is one of the candidates, and its measure is kept beside it. -/
theorem mem_of_best {asGood : Nat → Nat → Bool} {f : α → Nat} {xs : List α} {n : Nat} {y : α}
    (h : best asGood f xs = some (n, y)) : y ∈ xs ∧ n = f y := by
  induction xs generalizing n y with
  | nil => cases h
  | cons x xs ih =>
    unfold best at h
    dsimp only at h
    cases hbest : best asGood f xs with
    | none =>
      rw [hbest] at h
      cases h
      exact ⟨List.mem_cons_self, rfl⟩
    | some found =>
      obtain ⟨k, z⟩ := found
      rw [hbest] at h
      dsimp only at h
      split at h
      · cases h
        exact ⟨List.mem_cons_self, rfl⟩
      · cases h
        exact ⟨List.mem_cons_of_mem x (ih hbest).1, (ih hbest).2⟩

theorem mem_of_least {f : α → Nat} {xs : List α} {y : α} (h : least f xs = some y) : y ∈ xs := by
  obtain ⟨⟨n, z⟩, hbest, rfl⟩ := Option.map_eq_some_iff.mp h
  exact (mem_of_best hbest).1

theorem mem_of_greatest {f : α → Nat} {xs : List α} {y : α} (h : greatest f xs = some y) :
    y ∈ xs := by
  obtain ⟨⟨n, z⟩, hbest, rfl⟩ := Option.map_eq_some_iff.mp h
  exact (mem_of_best hbest).1

/-- The measure kept is the least of all. -/
theorem le_of_best {f : α → Nat} {xs : List α} {n : Nat} {y : α}
    (h : best (fun n k => n ≤ k) f xs = some (n, y)) : ∀ x ∈ xs, n ≤ f x := by
  induction xs generalizing n y with
  | nil => cases h
  | cons x xs ih =>
    unfold best at h
    dsimp only at h
    intro z hz
    cases hbest : best (fun n k => n ≤ k) f xs with
    | none =>
      rw [hbest] at h
      cases h
      rw [(best_eq_none_iff _ f xs).mp hbest] at hz
      exact Nat.le_of_eq (congrArg f (List.mem_singleton.mp hz).symm)
    | some found =>
      obtain ⟨k, w⟩ := found
      have hrest := ih hbest
      rw [hbest] at h
      dsimp only at h
      split at h
      · rename_i hle
        have hle : f x ≤ k := of_decide_eq_true hle
        cases h
        rcases List.mem_cons.mp hz with rfl | hz
        · exact Nat.le_refl _
        · exact Nat.le_trans hle (hrest z hz)
      · rename_i hlt
        have hlt : ¬ f x ≤ k := fun hle => hlt (decide_eq_true hle)
        cases h
        rcases List.mem_cons.mp hz with rfl | hz
        · omega
        · exact hrest z hz

/-- **No candidate has a smaller measure than the one that is picked.** -/
theorem le_of_least {f : α → Nat} {xs : List α} {y : α} (h : least f xs = some y) :
    ∀ x ∈ xs, f y ≤ f x := by
  obtain ⟨⟨n, z⟩, hbest, rfl⟩ := Option.map_eq_some_iff.mp h
  have hn := (mem_of_best hbest).2
  exact fun x hx => hn ▸ le_of_best hbest x hx

/-- The first candidate that meets the condition. -/
def IsFirst (P : α → Prop) (xs : List α) (x : α) : Prop :=
  ∃ before after, xs = before ++ x :: after ∧ P x ∧ ∀ y ∈ before, ¬ P y

/-- The first of the candidates with the greatest measure. -/
def IsFirstGreatest (f : α → Nat) (xs : List α) (x : α) : Prop :=
  ∃ before after, xs = before ++ x :: after ∧ (∀ y ∈ before, f y < f x) ∧ ∀ y ∈ after, f y ≤ f x

/-- **The best candidate comes first**: those before it are not as good, and it is as good as those
after it. -/
theorem exists_split_of_best {asGood : Nat → Nat → Bool} {f : α → Nat} {xs : List α} {n : Nat}
    {x : α} (h : best asGood f xs = some (n, x))
    (htrans : ∀ a b c, asGood a b = true → asGood b c = true → asGood a c = true)
    (htotal : ∀ a b, asGood a b = false → asGood b a = true) :
    ∃ before after, xs = before ++ x :: after ∧ (∀ y ∈ before, asGood (f y) (f x) = false) ∧
      ∀ y ∈ after, asGood (f x) (f y) = true := by
  induction xs generalizing n x with
  | nil => cases h
  | cons y ys ih =>
    unfold best at h
    dsimp only at h
    cases hbest : best asGood f ys with
    | none =>
      rw [hbest] at h
      cases h
      rw [(best_eq_none_iff _ f ys).mp hbest]
      exact ⟨[], [], rfl, fun z hz => absurd hz List.not_mem_nil,
        fun z hz => absurd hz List.not_mem_nil⟩
    | some found =>
      obtain ⟨k, z⟩ := found
      obtain ⟨before, after, hys, hbefore, hafter⟩ := ih hbest
      obtain rfl : k = f z := (mem_of_best hbest).2
      rw [hbest] at h
      dsimp only at h
      split at h
      · rename_i hgood
        cases h
        refine ⟨[], ys, rfl, fun w hw => absurd hw List.not_mem_nil, fun w hw => ?_⟩
        -- the new candidate is as good as the best so far, which is as good as all others
        rw [hys] at hw
        rcases List.mem_append.mp hw with hw | hw
        · exact htrans _ _ _ hgood (htotal _ _ (hbefore w hw))
        · rcases List.mem_cons.mp hw with rfl | hw
          · exact hgood
          · exact htrans _ _ _ hgood (hafter w hw)
      · rename_i hgood
        cases h
        refine ⟨y :: before, after, by rw [hys, List.cons_append], fun w hw => ?_, hafter⟩
        rcases List.mem_cons.mp hw with rfl | hw
        · exact Bool.eq_false_iff.mpr hgood
        · exact hbefore w hw

/-- **Of several greatest candidates the first is picked.** -/
theorem isFirstGreatest_of_greatest {f : α → Nat} {xs : List α} {x : α}
    (h : greatest f xs = some x) : IsFirstGreatest f xs x := by
  obtain ⟨⟨n, z⟩, hbest, rfl⟩ := Option.map_eq_some_iff.mp h
  obtain ⟨before, after, hxs, hbefore, hafter⟩ := exists_split_of_best hbest
    (fun a b c hab hbc =>
      decide_eq_true (Nat.le_trans (of_decide_eq_true hbc) (of_decide_eq_true hab)))
    (fun a b hab => decide_eq_true (Nat.le_of_lt (Nat.lt_of_not_le (of_decide_eq_false hab))))
  exact ⟨before, after, hxs,
    fun y hy => Nat.lt_of_not_le (of_decide_eq_false (hbefore y hy)),
    fun y hy => of_decide_eq_true (hafter y hy)⟩

/-- Candidates of measure zero do not matter where there are others. -/
theorem IsFirstGreatest.of_filter {f : α → Nat} {xs : List α} {x : α}
    (h : IsFirstGreatest f (xs.filter (0 < f ·)) x) : 0 < f x ∧ IsFirstGreatest f xs x := by
  obtain ⟨before, after, hxs, hbefore, hafter⟩ := h
  obtain ⟨ys, zs, rfl, rfl, hzs⟩ := List.filter_eq_append_iff.mp hxs
  obtain ⟨ws, us, rfl, hws, hpos, rfl⟩ := List.filter_eq_cons_iff.mp hzs
  have hpos : 0 < f x := of_decide_eq_true hpos
  refine ⟨hpos, ys ++ ws, us, (List.append_assoc _ _ _).symm, fun y hy => ?_, fun y hy => ?_⟩
  · by_cases hy0 : 0 < f y
    · rcases List.mem_append.mp hy with hy | hy
      · exact hbefore y (List.mem_filter.mpr ⟨hy, decide_eq_true hy0⟩)
      · exact absurd (decide_eq_true hy0) (hws y hy)
    · omega
  · by_cases hy0 : 0 < f y
    · exact hafter y (List.mem_filter.mpr ⟨hy, decide_eq_true hy0⟩)
    · omega

/-- **The first that meets the condition is the one that is found.** -/
theorem isFirst_iff_find? {P : α → Prop} [DecidablePred P] {xs : List α} {x : α} :
    IsFirst P xs x ↔ xs.find? (fun y => decide (P y)) = some x := by
  rw [List.find?_eq_some_iff_append]
  constructor
  · rintro ⟨before, after, hxs, hx, hbefore⟩
    exact ⟨decide_eq_true hx, before, after, hxs, fun y hy => by simp [hbefore y hy]⟩
  · rintro ⟨hx, before, after, hxs, hbefore⟩
    exact ⟨before, after, hxs, of_decide_eq_true hx, fun y hy => by simpa using hbefore y hy⟩

theorem isFirst_of_find? {p : α → Bool} {xs : List α} {x : α} (h : xs.find? p = some x) :
    IsFirst (p · = true) xs x :=
  isFirst_iff_find?.mpr (by simpa only [Bool.decide_eq_true] using h)

/-- There is only one first. -/
theorem IsFirst.unique {P : α → Prop} {xs : List α} {x y : α} (hx : IsFirst P xs x)
    (hy : IsFirst P xs y) : x = y := by
  classical
  exact Option.some.inj ((isFirst_iff_find?.mp hx).symm.trans (isFirst_iff_find?.mp hy))

/-- Where a candidate meets the condition there is a first. -/
theorem exists_isFirst {P : α → Prop} {xs : List α} (h : ∃ x ∈ xs, P x) :
    ∃ x, IsFirst P xs x := by
  classical
  obtain ⟨x, hx, hP⟩ := h
  obtain ⟨y, hy⟩ := Option.isSome_iff_exists.mp
    (List.find?_isSome (p := fun y => decide (P y)) |>.mpr ⟨x, hx, decide_eq_true hP⟩)
  exact ⟨y, isFirst_iff_find?.mpr hy⟩

/-- The first candidate is one of them and meets the condition. -/
theorem IsFirst.mem {P : α → Prop} {xs : List α} {x : α} (h : IsFirst P xs x) : x ∈ xs ∧ P x := by
  obtain ⟨before, after, rfl, hx, -⟩ := h
  exact ⟨List.mem_append_right before List.mem_cons_self, hx⟩

/-- The first of the candidates that are left is the first that is left and meets the condition. -/
theorem isFirst_filter_iff {P : α → Prop} {q : α → Bool} {xs : List α} {x : α} :
    IsFirst P (xs.filter q) x ↔ IsFirst (fun y => q y = true ∧ P y) xs x := by
  classical
  rw [isFirst_iff_find?, isFirst_iff_find?, List.find?_filter]
  simp only [decide_eq_true_eq]

/-- **Of several least candidates the first is picked.** -/
theorem least_eq_some_iff {f : α → Nat} {xs : List α} {x : α} :
    least f xs = some x ↔ IsFirst (fun x => ∀ y ∈ xs, f x ≤ f y) xs x := by
  have hfirst : ∀ {z}, least f xs = some z → IsFirst (fun x => ∀ y ∈ xs, f x ≤ f y) xs z := by
    intro z h
    obtain ⟨⟨n, z⟩, hbest, rfl⟩ := Option.map_eq_some_iff.mp h
    obtain ⟨before, after, hxs, hbefore, -⟩ := exists_split_of_best hbest
      (fun a b c hab hbc =>
        decide_eq_true (Nat.le_trans (of_decide_eq_true hab) (of_decide_eq_true hbc)))
      (fun a b hab => decide_eq_true (Nat.le_of_lt (Nat.lt_of_not_le (of_decide_eq_false hab))))
    exact ⟨before, after, hxs, le_of_least h,
      fun y hy hleast => of_decide_eq_false (hbefore y hy) (hleast z (mem_of_least h))⟩
  refine ⟨hfirst, fun h => ?_⟩
  obtain ⟨z, hz⟩ : ∃ z, least f xs = some z := by
    refine Option.ne_none_iff_exists'.mp fun hnone => ?_
    rw [least_eq_none_iff] at hnone
    exact List.ne_nil_of_mem h.mem.1 hnone
  rw [hz, h.unique (hfirst hz)]

/-- Only the candidates matter. -/
theorem IsFirst.congr {P Q : α → Prop} {xs : List α} {x : α} (h : IsFirst P xs x)
    (hPQ : ∀ y ∈ xs, P y ↔ Q y) : IsFirst Q xs x := by
  obtain ⟨before, after, rfl, hx, hbefore⟩ := h
  refine ⟨before, after, rfl, ?_, fun y hy => ?_⟩
  · exact (hPQ x (List.mem_append_right _ List.mem_cons_self)).mp hx
  · exact fun hQ => hbefore y hy ((hPQ y (List.mem_append_left _ hy)).mpr hQ)

theorem isFirst_congr {P Q : α → Prop} {xs : List α} {x : α} (hPQ : ∀ y ∈ xs, P y ↔ Q y) :
    IsFirst P xs x ↔ IsFirst Q xs x :=
  ⟨fun h => h.congr hPQ, fun h => h.congr fun y hy => (hPQ y hy).symm⟩

theorem IsFirstGreatest.congr {f g : α → Nat} {xs : List α} {x : α} (h : IsFirstGreatest f xs x)
    (hfg : ∀ y ∈ xs, f y = g y) : IsFirstGreatest g xs x := by
  obtain ⟨before, after, rfl, hbefore, hafter⟩ := h
  refine ⟨before, after, rfl, fun y hy => ?_, fun y hy => ?_⟩
  · rw [← hfg x (List.mem_append_right _ List.mem_cons_self),
      ← hfg y (List.mem_append_left _ hy)]
    exact hbefore y hy
  · rw [← hfg x (List.mem_append_right _ List.mem_cons_self),
      ← hfg y (List.mem_append_right _ (List.mem_cons_of_mem x hy))]
    exact hafter y hy

/-- Under other names the same candidate is the best, with the same measure. -/
theorem best_map (asGood : Nat → Nat → Bool) {g : α → β} {f : β → Nat} {f' : α → Nat}
    {xs : List α} (h : ∀ x ∈ xs, f (g x) = f' x) :
    best asGood f (xs.map g) = (best asGood f' xs).map fun found => (found.1, g found.2) := by
  induction xs with
  | nil => rfl
  | cons x xs ih =>
    have ih := ih fun y hy => h y (List.mem_cons_of_mem x hy)
    rw [List.map_cons, best, best, ih, h x List.mem_cons_self]
    cases best asGood f' xs with
    | none => rfl
    | some found =>
      dsimp only [Option.map_some]
      split <;> rfl

/-- **Under other names the same candidate is picked**, if the measures are the same. -/
theorem least_map {g : α → β} {f : β → Nat} {f' : α → Nat} {xs : List α}
    (h : ∀ x ∈ xs, f (g x) = f' x) : least f (xs.map g) = (least f' xs).map g := by
  rw [least, best_map _ h, least, Option.map_map, Option.map_map]
  rfl

theorem least_congr {f g : α → Nat} {xs : List α} (h : ∀ x ∈ xs, f x = g x) :
    least f xs = least g xs := by
  have hmap := least_map (g := id) h
  rwa [List.map_id, Option.map_id, id] at hmap

theorem greatest_map {g : α → β} {f : β → Nat} {f' : α → Nat} {xs : List α}
    (h : ∀ x ∈ xs, f (g x) = f' x) : greatest f (xs.map g) = (greatest f' xs).map g := by
  rw [greatest, best_map _ h, greatest, Option.map_map, Option.map_map]
  rfl

end Matchday.Pick
