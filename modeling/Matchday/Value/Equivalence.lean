/-
# Sameness is an equivalence

Being the same is reflexive, symmetric and transitive, for numbers because their values are
compared exactly, for everything else because it is so for the parts. Hence the same values can
stand for each other wherever values are counted, looked up or merged. They are not always one value:
`1` and the rule numbered one are the same, and only written differently. Nor is every value equal
to itself: what is no number is not (`equals_self_iff`). Otherwise values are equal when they are
the same (`beq_iff_equals_or`).

The comparison is a recursive program. Its cases are first restated as what they ask of the
members (`same_tuple`, `same_set`, `same_dict`); the three laws then go by induction on parts.
-/
import Matchday.Equality
import Matchday.Value.Parts
import Matchday.Value.Same

namespace Matchday

namespace Value

/-! ## 1. The cases of the comparison -/

/-- Two numbers are the same when their values are. -/
theorem sameNumber_iff {v w : Value} :
    sameNumber v w = true ↔
      ∃ a b, v.number? = some a ∧ w.number? = some b ∧ a.same b = true := by
  unfold sameNumber
  split
  · rename_i a b ha hb
    simp [ha, hb]
  · rename_i h
    refine ⟨fun h' => absurd h' (by simp), ?_⟩
    rintro ⟨a, b, ha, hb, -⟩
    exact absurd hb (h a b ha)

/-- A number is compared by value, whatever it is compared with. -/
theorem same_of_number {v w : Value} (h : v.number?.isSome = true) :
    same v w = sameNumber v w := by
  cases v <;> simp_all [number?] <;> try rfl
  cases w <;> simp [same, sameNumber, number?]

/-- Every item of the one list has one the same in the other. -/
theorem allAmong_iff {xs ys : List Value} :
    allAmong xs ys = true ↔ ∀ x ∈ xs, ∃ y ∈ ys, same x y = true := by
  induction xs with
  | nil => simp [allAmong]
  | cons x xs ih => simp [allAmong, ih]

/-- Some item of the list is the same. -/
theorem hasSame_iff {xs : List Value} {y : Value} :
    hasSame xs y = true ↔ ∃ x ∈ xs, same x y = true := by
  induction xs with
  | nil => simp [hasSame]
  | cons x xs ih => simp [hasSame, ih]

/-- An entry is compared by key and by value. -/
theorem sameEntry_iff {e : Value × Value} {k v : Value} :
    sameEntry e k v = true ↔ same e.1 k = true ∧ same e.2 v = true := by
  obtain ⟨l, w⟩ := e
  simp [sameEntry]

/-- Every entry of the one list has one the same in the other. -/
theorem entriesAmong_iff {es fs : List (Value × Value)} :
    entriesAmong es fs = true ↔ ∀ e ∈ es, ∃ f ∈ fs, sameEntry e f.1 f.2 = true := by
  induction es with
  | nil => simp [entriesAmong]
  | cons e es ih => simp [entriesAmong, ih]

/-- Some entry of the list is the same. -/
theorem hasEntry_iff {es : List (Value × Value)} {k v : Value} :
    hasEntry es k v = true ↔ ∃ e ∈ es, sameEntry e k v = true := by
  induction es with
  | nil => simp [hasEntry]
  | cons e es ih => simp [hasEntry, ih]

/-- **Sets are the same when each covers the other.** -/
theorem same_set {xs ys : List Value} :
    same (.set xs) (.set ys) = true ↔
      (∀ x ∈ xs, ∃ y ∈ ys, same x y = true) ∧ ∀ y ∈ ys, ∃ x ∈ xs, same x y = true := by
  simp [same, allAmong_iff, hasSame_iff]

/-- **Dictionaries are the same when each has all entries of the other.** -/
theorem same_dict {es fs : List (Value × Value)} :
    same (.dict es) (.dict fs) = true ↔
      (∀ e ∈ es, ∃ f ∈ fs, same e.1 f.1 = true ∧ same e.2 f.2 = true) ∧
        ∀ f ∈ fs, ∃ e ∈ es, same e.1 f.1 = true ∧ same e.2 f.2 = true := by
  simp only [same, Bool.and_eq_true, entriesAmong_iff, List.all_eq_true, hasEntry_iff,
    sameEntry_iff]

/-! ## 2. Lists of items -/

/-- A list is the same as itself if all its items are. -/
theorem sameAll_self {xs : List Value} (h : ∀ x ∈ xs, same x x = true) :
    sameAll xs xs = true := by
  induction xs with
  | nil => rfl
  | cons x xs ih =>
    simp [sameAll, h x List.mem_cons_self, ih fun y hy => h y (List.mem_cons_of_mem x hy)]

/-- Lists can be exchanged if their items can. -/
theorem sameAll_symm {xs ys : List Value}
    (h : ∀ x ∈ xs, ∀ y, same x y = true → same y x = true) (hs : sameAll xs ys = true) :
    sameAll ys xs = true := by
  induction xs generalizing ys with
  | nil => cases ys <;> simp_all [sameAll]
  | cons x xs ih =>
    cases ys with
    | nil => simp [sameAll] at hs
    | cons y ys =>
      simp only [sameAll, Bool.and_eq_true] at hs ⊢
      exact ⟨h x List.mem_cons_self y hs.1,
        ih (fun z hz => h z (List.mem_cons_of_mem x hz)) hs.2⟩

/-- Lists can be chained if their items can. -/
theorem sameAll_trans {xs ys zs : List Value}
    (h : ∀ x ∈ xs, ∀ y z, same x y = true → same y z = true → same x z = true)
    (hxy : sameAll xs ys = true) (hyz : sameAll ys zs = true) : sameAll xs zs = true := by
  induction xs generalizing ys zs with
  | nil => cases ys <;> simp_all [sameAll]
  | cons x xs ih =>
    cases ys with
    | nil => simp [sameAll] at hxy
    | cons y ys =>
      cases zs with
      | nil => simp [sameAll] at hyz
      | cons z zs =>
        simp only [sameAll, Bool.and_eq_true] at hxy hyz ⊢
        exact ⟨h x List.mem_cons_self y z hxy.1 hyz.1,
          ih (fun u hu => h u (List.mem_cons_of_mem x hu)) hxy.2 hyz.2⟩

/-! ## 3. The three laws -/

/-- The key and the value of an entry are parts of the dictionary. -/
theorem mem_parts_dict {es : List (Value × Value)} {e : Value × Value} (he : e ∈ es) :
    e.1 ∈ (Value.dict es).parts ∧ e.2 ∈ (Value.dict es).parts :=
  ⟨List.mem_flatMap.mpr ⟨e, he, by simp⟩, List.mem_flatMap.mpr ⟨e, he, by simp⟩⟩

/-- **Every value is the same as itself.** -/
theorem same_self (v : Value) : same v v = true := by
  induction v using byParts with
  | step v ih =>
    cases v with
    | none | bye => rfl
    | text s => simp [same]
    | tuple xs | list xs => rw [same]; exact sameAll_self ih
    | set xs => exact same_set.mpr ⟨fun x hx => ⟨x, hx, ih x hx⟩, fun x hx => ⟨x, hx, ih x hx⟩⟩
    | dict es =>
      have h (e) (he : e ∈ es) : ∃ f ∈ es, same e.1 f.1 = true ∧ same e.2 f.2 = true :=
        ⟨e, he, ih _ (mem_parts_dict he).1, ih _ (mem_parts_dict he).2⟩
      have h' (e) (he : e ∈ es) : ∃ f ∈ es, same f.1 e.1 = true ∧ same f.2 e.2 = true :=
        ⟨e, he, ih _ (mem_parts_dict he).1, ih _ (mem_parts_dict he).2⟩
      exact same_dict.mpr ⟨h, h'⟩
    | bool | int | decimal | rule | half =>
      rw [same_of_number rfl, sameNumber_iff]
      exact ⟨_, _, rfl, rfl, Number.same_self _⟩

/-- What is the same as a number is a number. -/
theorem number?_isSome_of_same {v w : Value} (hv : v.number?.isSome = true)
    (h : same v w = true) : w.number?.isSome = true := by
  rw [same_of_number hv, sameNumber_iff] at h
  obtain ⟨a, b, -, hb, -⟩ := h
  simp [hb]

/-- **Sameness is symmetric.** -/
theorem same_symm {v w : Value} (h : same v w = true) : same w v = true := by
  induction v using byParts generalizing w with
  | step v ih =>
    by_cases hv : v.number?.isSome = true
    · have hw := number?_isSome_of_same hv h
      rw [same_of_number hv, sameNumber_iff] at h
      obtain ⟨a, b, ha, hb, hab⟩ := h
      rw [same_of_number hw, sameNumber_iff]
      exact ⟨b, a, hb, ha, Number.same_symm hab⟩
    · cases v with
      | bool | int | decimal | rule | half => exact absurd rfl hv
      | none | bye => cases w <;> simp_all [same]
      | text s => cases w <;> simp_all [same]
      | tuple xs | list xs =>
        cases w <;> simp only [same, Bool.false_eq_true] at h
        rw [same]
        exact sameAll_symm (fun x hx y hy => ih x hx hy) h
      | set xs =>
        cases w with
        | set ys =>
          obtain ⟨h₁, h₂⟩ := same_set.mp h
          refine same_set.mpr ⟨fun y hy => ?_, fun x hx => ?_⟩
          · obtain ⟨x, hx, hxy⟩ := h₂ y hy
            exact ⟨x, hx, ih x hx hxy⟩
          · obtain ⟨y, hy, hxy⟩ := h₁ x hx
            exact ⟨y, hy, ih x hx hxy⟩
        | _ => simp [same] at h
      | dict es =>
        cases w with
        | dict fs =>
          obtain ⟨h₁, h₂⟩ := same_dict.mp h
          refine same_dict.mpr ⟨fun f hf => ?_, fun e he => ?_⟩
          · obtain ⟨e, he, hk, hv⟩ := h₂ f hf
            exact ⟨e, he, ih _ (mem_parts_dict he).1 hk, ih _ (mem_parts_dict he).2 hv⟩
          · obtain ⟨f, hf, hk, hv⟩ := h₁ e he
            exact ⟨f, hf, ih _ (mem_parts_dict he).1 hk, ih _ (mem_parts_dict he).2 hv⟩
        | _ => simp [same] at h

/-- **Sameness is transitive.** -/
theorem same_trans {u v w : Value} (huv : same u v = true) (hvw : same v w = true) :
    same u w = true := by
  induction u using byParts generalizing v w with
  | step u ih =>
    by_cases hu : u.number?.isSome = true
    · have hv := number?_isSome_of_same hu huv
      rw [same_of_number hu, sameNumber_iff] at huv
      rw [same_of_number hv, sameNumber_iff] at hvw
      obtain ⟨a, b, ha, hb, hab⟩ := huv
      obtain ⟨b', c, hb', hc, hbc⟩ := hvw
      obtain rfl : b' = b := Option.some.inj (hb'.symm.trans hb)
      rw [same_of_number hu, sameNumber_iff]
      exact ⟨a, c, ha, hc, Number.same_trans hab hbc⟩
    · cases u with
      | bool | int | decimal | rule | half => exact absurd rfl hu
      | none | bye => cases v <;> simp_all [same]
      | text s => cases v <;> simp_all [same]
      | tuple xs | list xs =>
        cases v <;> simp only [same, Bool.false_eq_true] at huv
        cases w <;> simp only [same, Bool.false_eq_true] at hvw
        rw [same]
        exact sameAll_trans (fun x hx y z hxy hyz => ih x hx hxy hyz) huv hvw
      | set xs =>
        cases v with
        | set ys =>
          cases w with
          | set zs =>
            obtain ⟨h₁, h₂⟩ := same_set.mp huv
            obtain ⟨g₁, g₂⟩ := same_set.mp hvw
            refine same_set.mpr ⟨fun x hx => ?_, fun z hz => ?_⟩
            · obtain ⟨y, hy, hxy⟩ := h₁ x hx
              obtain ⟨z, hz, hyz⟩ := g₁ y hy
              exact ⟨z, hz, ih x hx hxy hyz⟩
            · obtain ⟨y, hy, hyz⟩ := g₂ z hz
              obtain ⟨x, hx, hxy⟩ := h₂ y hy
              exact ⟨x, hx, ih x hx hxy hyz⟩
          | _ => simp [same] at hvw
        | _ => simp [same] at huv
      | dict es =>
        cases v with
        | dict fs =>
          cases w with
          | dict gs =>
            obtain ⟨h₁, h₂⟩ := same_dict.mp huv
            obtain ⟨g₁, g₂⟩ := same_dict.mp hvw
            refine same_dict.mpr ⟨fun e he => ?_, fun g hg => ?_⟩
            · obtain ⟨f, hf, hk, hv⟩ := h₁ e he
              obtain ⟨g, hg, hk', hv'⟩ := g₁ f hf
              exact ⟨g, hg, ih _ (mem_parts_dict he).1 hk hk', ih _ (mem_parts_dict he).2 hv hv'⟩
            · obtain ⟨f, hf, hk', hv'⟩ := g₂ g hg
              obtain ⟨e, he, hk, hv⟩ := h₂ f hf
              exact ⟨e, he, ih _ (mem_parts_dict he).1 hk hk', ih _ (mem_parts_dict he).2 hv hv'⟩
          | _ => simp [same] at hvw
        | _ => simp [same] at huv

instance : EquivBEq Value where
  rfl := same_self _
  symm := same_symm
  trans := same_trans

/-! ## 4. Equality -/

/-- The value is equal to itself, as everything is but what is no number. -/
def equalsItself (v : Value) : Bool :=
  match v.number? with
  | some (.noNumber _) => false
  | _ => true

instance : Equality Value where
  toItself := equalsItself
  congr {v w} h := by
    by_cases hv : v.number?.isSome = true
    · obtain ⟨a, b, ha, hb, hab⟩ := sameNumber_iff.mp ((same_of_number hv).symm.trans h)
      rw [equalsItself, equalsItself, ha, hb]
      cases a <;> cases b <;> first | rfl | cases hab
    · have hw : ¬ w.number?.isSome = true := fun hw =>
        hv (number?_isSome_of_same hw (same_symm h))
      rw [equalsItself, equalsItself, Option.not_isSome_iff_eq_none.mp hv,
        Option.not_isSome_iff_eq_none.mp hw]

/-- **Every value is equal to itself, but for what is no number.** -/
theorem equals_self_iff {v : Value} :
    equals v v = true ↔ ∀ object, v ≠ .decimal (.noNumber object) := by
  rw [equals, BEq.rfl, Bool.true_and]
  cases v with
  | decimal d => cases d <;> simp [Equality.toItself, equalsItself, number?, Decimal.number]
  | _ => simp [Equality.toItself, equalsItself, number?, Number.ofInt]

/-- What is no number is the same as nothing else. -/
theorem beq_noNumber_iff {v : Value} {object : Nat} :
    (v == .decimal (.noNumber object)) = true ↔ v = .decimal (.noNumber object) := by
  constructor
  · cases v with
    | decimal d =>
      cases d with
      | noNumber object' =>
        intro h
        have hsame : (object' == object) = true := h
        rw [eq_of_beq hsame]
      | finite | infinite => nofun
    | _ => nofun
  · rintro rfl
    exact BEq.rfl

/-- **Two values are the same when they are equal**, or one and the same object that is no number. -/
theorem beq_iff_equals_or {v w : Value} : (v == w) = true ↔ equals v w = true ∨
    ∃ object, v = .decimal (.noNumber object) ∧ w = .decimal (.noNumber object) := by
  constructor
  · intro h
    by_cases hw : equals w w = true
    · exact Or.inl ((equals_eq_beq hw v).trans h)
    · obtain ⟨object, hobject⟩ := Classical.not_forall.mp (mt equals_self_iff.mpr hw)
      have hw := Classical.not_not.mp hobject
      rw [hw] at h
      exact Or.inr ⟨object, beq_noNumber_iff.mp h, hw⟩
  · rintro (h | ⟨object, rfl, rfl⟩)
    · exact beq_of_equals h
    · exact BEq.rfl

/-- Whole numbers are equal when they are the same. -/
@[simp] theorem equals_int (m n : Int) : equals (Value.int m) (Value.int n) = (m == n) :=
  (equals_eq_beq (equals_self_iff.mpr fun _ h => Value.noConfusion h) _).trans (beq_int m n)

/-! ## 5. Nothing -/

/-- Nothing but nothing is the same as nothing. -/
theorem beq_none_iff {v : Value} : (v == .none) = true ↔ v = .none := by
  constructor
  · cases v with
    | none => exact fun _ => rfl
    | _ => intro h; cases h
  · rintro rfl
    exact BEq.rfl

end Value
end Matchday
