/-
# Home and guest on the circle

How often a place is at home is read off its number.  Let there be `2 * h + 1` turns.

* Over all slots, played or not, an even place is at home `h + 1` times and an odd one `h` times
  (`countP_home_slots`): a seat is at home when it is an even number of steps ahead of the turn's
  own seat, and going round the circle it stands at every distance once.
* With an odd number `n = 2 * h + 1` of participants the slots of the vacant seat `n` fall away.  Of
  the even places those divisible by four lose a home match in this way, and of the odd places those
  that sum up with `n` to a multiple of four (`countP_home_bye`).
* So just the places with the remainder two modulo four are at home too often.  In the last turn
  each of them is at home against a place that is at home too rarely (`slot_last`), and the repair,
  which swaps these matches, leaves everybody with `h` home matches.
-/
import Matchday.Proofs.Circle.Seating
import Matchday.Proofs.Roles

namespace Matchday.Circle

/-! ## 1. Home matches over all slots -/

/-- Slots that are at most one in each turn are counted by their turns. -/
theorem countP_slots {h : Nat} {f : Nat × Nat → Bool}
    (hf : ∀ t i j, t ≤ 2 * h → i ≤ h → j ≤ h → f (t, i) = true → f (t, j) = true → i = j) :
    (slots h).countP f
      = (List.range' 0 (2 * h + 1)).countP fun t => (List.range (h + 1)).any fun i => f (t, i) := by
  rw [slots, List.countP_flatMap, ← sum_map_ite_eq_countP, ← List.range_eq_range']
  refine sum_map_congr fun t ht => ?_
  have ht := List.mem_range.mp ht
  have hle : (List.range (h + 1)).countP (fun i => f (t, i)) ≤ 1 := by
    refine countP_le_one List.nodup_range fun i hi j hj => ?_
    have hi := List.mem_range.mp hi
    have hj := List.mem_range.mp hj
    exact hf t i j (by omega) (by omega) (by omega)
  have hcomp : ((List.range (h + 1)).map fun i => (t, i)).countP f
      = (List.range (h + 1)).countP fun i => f (t, i) := List.countP_map
  rw [Function.comp_apply, hcomp]
  by_cases hany : ((List.range (h + 1)).any fun i => f (t, i)) = true
  · rw [if_pos hany]
    obtain ⟨i, hi, hfi⟩ := List.any_eq_true.mp hany
    have hpos : 0 < (List.range (h + 1)).countP (fun i => f (t, i)) :=
      List.countP_pos_iff.mpr ⟨i, hi, hfi⟩
    omega
  · rw [if_neg hany]
    refine List.countP_eq_zero.mpr fun i hi hfi => hany ?_
    exact List.any_eq_true.mpr ⟨i, hi, hfi⟩

/-- When a place is at home: before its own turn in turns of the same parity, in its own turn with
the first seat if that turn is odd, and afterwards in turns of the other parity. -/
theorem exists_home_iff {h t k : Nat} (ht : t ≤ 2 * h) (hk : k ≤ 2 * h) :
    (∃ i, i ≤ h ∧ (slot h t i).1 = k + 1) ↔
      t < k ∧ t % 2 = k % 2 ∨ t = k ∧ k % 2 = 1 ∨ k < t ∧ t % 2 = (k + 1) % 2 := by
  constructor
  · rintro ⟨i, hi, hhome⟩
    rcases slot_cases ht hi with hc | hc | ⟨e, hc⟩ <;> omega
  · intro hcase
    have hplace : ∃ i e, i ≤ h ∧ (i = e ∨ i + e = 2 * h + 1) ∧
        (e % 2 = 0 ∧ (k = t + e ∨ k + 2 * h + 1 = t + e) ∨ e = 0 ∧ t = k) ∧ e ≤ 2 * h := by
      rcases hcase with hlt | heq | hgt
      · by_cases hle : k - t ≤ h
        · exact ⟨k - t, k - t, by omega⟩
        · exact ⟨2 * h + 1 - (k - t), k - t, by omega⟩
      · exact ⟨0, 0, by omega⟩
      · by_cases hle : k + 2 * h + 1 - t ≤ h
        · exact ⟨k + 2 * h + 1 - t, k + 2 * h + 1 - t, by omega⟩
        · exact ⟨2 * h + 1 - (k + 2 * h + 1 - t), k + 2 * h + 1 - t, by omega⟩
    obtain ⟨i, e, hi, hie, hke, he⟩ := hplace
    refine ⟨i, hi, ?_⟩
    rcases slot_cases ht hi with hc | hc | ⟨f, hc⟩ <;> omega

/-- When the first seat is at home. -/
theorem exists_home_zero_iff {h t : Nat} (ht : t ≤ 2 * h) :
    (∃ i, i ≤ h ∧ (slot h t i).1 = 0) ↔ t % 2 = 0 := by
  constructor
  · rintro ⟨i, hi, hhome⟩
    rcases slot_cases ht hi with hc | hc | ⟨e, hc⟩ <;> omega
  · intro hpar
    refine ⟨0, Nat.zero_le h, ?_⟩
    rw [slot_zero ht, if_pos hpar]

/-- **Even places are at home once more than odd ones**, over all slots. -/
theorem countP_home_slots {h p : Nat} (hp : p ≤ 2 * h + 1) :
    (slots h).countP (fun x => (slot h x.1 x.2).1 == p) = h + (p + 1) % 2 := by
  rw [countP_slots fun t i j ht hi hj hfi hfj => by
    refine place_unique (p := p) ht hi hj (Or.inl ?_) (Or.inl ?_)
    · exact eq_of_beq hfi
    · exact eq_of_beq hfj]
  have hany : ∀ t, ((List.range (h + 1)).any fun i => (slot h t i).1 == p) = true
      ↔ ∃ i, i ≤ h ∧ (slot h t i).1 = p := by
    intro t
    simp only [List.any_eq_true, List.mem_range, beq_iff_eq, Nat.lt_succ_iff]
  rcases Nat.eq_zero_or_pos p with rfl | hpos
  · have hturns : (List.range' 0 (2 * h + 1)).countP
        (fun t => (List.range (h + 1)).any fun i => (slot h t i).1 == 0)
        = (List.range' 0 (2 * h + 1)).countP (· % 2 == 0) := by
      refine List.countP_congr fun t ht => ?_
      have ht := List.mem_range'_1.mp ht
      rw [hany, exists_home_zero_iff (by omega), beq_iff_eq]
    rw [hturns, countP_parity (by omega)]
    simp only [Nat.zero_mod, if_true]
    omega
  · -- the turns before its own, its own, and those after it
    obtain ⟨k, rfl⟩ : ∃ k, p = k + 1 := ⟨p - 1, by omega⟩
    have hsplit : List.range' 0 (2 * h + 1)
        = List.range' 0 k ++ k :: List.range' (k + 1) (2 * h - k) := by
      have happend := List.range'_append_1 (s := 0) (m := k) (n := 2 * h - k + 1)
      rw [List.range'_succ, Nat.zero_add] at happend
      rw [happend]
      exact congrArg (List.range' 0) (by omega)
    have hbefore : (List.range' 0 k).countP
        (fun t => (List.range (h + 1)).any fun i => (slot h t i).1 == k + 1)
        = (List.range' 0 k).countP (· % 2 == k % 2) := by
      refine List.countP_congr fun t ht => ?_
      have ht := List.mem_range'_1.mp ht
      rw [hany, exists_home_iff (by omega) (by omega), beq_iff_eq]
      omega
    have hafter : (List.range' (k + 1) (2 * h - k)).countP
        (fun t => (List.range (h + 1)).any fun i => (slot h t i).1 == k + 1)
        = (List.range' (k + 1) (2 * h - k)).countP (· % 2 == (k + 1) % 2) := by
      refine List.countP_congr fun t ht => ?_
      have ht := List.mem_range'_1.mp ht
      rw [hany, exists_home_iff (by omega) (by omega), beq_iff_eq]
      omega
    have hown : ((List.range (h + 1)).any fun i => (slot h k i).1 == k + 1) = true ↔ k % 2 = 1 := by
      rw [hany, exists_home_iff (by omega) (by omega)]
      omega
    rw [hsplit, List.countP_append, List.countP_cons, hbefore, hafter, countP_parity (by omega),
      countP_parity (by omega)]
    by_cases hodd : k % 2 = 1
    · rw [if_pos (hown.mpr hodd), if_neg (by omega), if_pos (by omega)]
      omega
    · rw [if_neg (fun h' => hodd (hown.mp h')), if_pos (by omega), if_pos (by omega)]
      omega

/-! ## 2. The matches that fall away -/

/-- The place is at home against the vacant seat of an odd circle. -/
def LosesHome (n p : Nat) : Prop := p % 4 = 0 ∨ p % 2 = 1 ∧ (p + n) % 4 = 0

instance (n p : Nat) : Decidable (LosesHome n p) := inferInstanceAs (Decidable (_ ∨ _))

/-- Who is at home against the last seat. -/
theorem losesHome_of_slot {h t i p : Nat} (ht : t ≤ 2 * h) (hi : i ≤ h)
    (hhome : (slot h t i).1 = p) (hguest : (slot h t i).2 = 2 * h + 1) :
    LosesHome (2 * h + 1) p := by
  unfold LosesHome
  rcases slot_cases ht hi with hc | hc | ⟨e, hc⟩ <;> omega

/-- Who is guest of the last seat. -/
theorem not_losesHome_of_slot {h t i p : Nat} (ht : t ≤ 2 * h) (hi : i ≤ h)
    (hhome : (slot h t i).1 = 2 * h + 1) (hguest : (slot h t i).2 = p) :
    ¬ LosesHome (2 * h + 1) p := by
  unfold LosesHome
  rcases slot_cases ht hi with hc | hc | ⟨e, hc⟩ <;> omega

/-- **How many home matches the vacant seat takes away.** -/
theorem countP_home_bye {h p : Nat} (hp : p < 2 * h + 1) :
    (slots h).countP (fun x => (slot h x.1 x.2).1 == p && (slot h x.1 x.2).2 == 2 * h + 1)
      = if LosesHome (2 * h + 1) p then 1 else 0 := by
  obtain ⟨t, i, ht, hi, hti⟩ := exists_slot (h := h) (Nat.le_refl (2 * h + 1)) hp
  rcases hti with ⟨hhome, hguest⟩ | ⟨hhome, hguest⟩
  · rw [if_pos (losesHome_of_slot ht hi hhome hguest)]
    refine countP_eq_one_of_unique (nodup_slots h) (x := (t, i)) (mem_slots.mpr ⟨ht, hi⟩) ?_
    rintro ⟨s, j⟩ hx
    obtain ⟨hs, hj⟩ := mem_slots.mp hx
    rw [Bool.and_eq_true, beq_iff_eq, beq_iff_eq]
    constructor
    · rintro hsj
      obtain rfl : s = t := turn_unique hs ht hj hi (Or.inl hsj) (Or.inl ⟨hhome, hguest⟩)
      exact congrArg (s, ·) (place_unique hs hj hi (Or.inl hsj.1) (Or.inl hhome))
    · intro heq
      obtain ⟨rfl, rfl⟩ := Prod.mk.inj heq
      exact ⟨hhome, hguest⟩
  · have hnot := not_losesHome_of_slot ht hi hhome hguest
    rw [if_neg hnot]
    refine List.countP_eq_zero.mpr fun x hx h' => hnot ?_
    obtain ⟨hs, hj⟩ := mem_slots.mp hx
    rw [Bool.and_eq_true, beq_iff_eq, beq_iff_eq] at h'
    exact losesHome_of_slot hs hj h'.1 h'.2

/-! ## 3. Home matches in the rotation -/

theorem halfway_of_odd (h : Nat) : halfway (2 * h + 1) = h := by
  unfold halfway
  omega

theorem halfway_of_even (h : Nat) : halfway (2 * h + 2) = h := by
  unfold halfway
  omega

/-- With an even number every slot is played. -/
theorem taken_of_even {h : Nat} {x : Nat × Nat} (hx : x ∈ slots h) :
    taken (2 * h + 2) x = true := by
  obtain ⟨ht, hi⟩ := mem_slots.mp hx
  have hrange := slot_range ht hi
  rw [taken_iff (by omega), halfway_of_even]
  omega

theorem gamesAs_home_of_even {h p : Nat} (hp : p < 2 * h + 2) :
    Tally.gamesAs .home p (placesInRotation (2 * h + 2)) = h + (p + 1) % 2 := by
  have h2 : 2 ≤ 2 * h + 2 := by omega
  rw [Tally.gamesAs, countP_placesInRotation h2, ← countP_home_slots (h := h) (by omega)]
  rw [halfway_of_even]
  refine List.countP_congr fun x hx => ?_
  rw [taken_of_even hx, Bool.and_true]
  rfl

/-- **Home matches before the repair**: one too many for the remainder two modulo four, and one too
few for the odd places that sum up with the number of participants to a multiple of four. -/
theorem gamesAs_home_of_odd {h p : Nat} (h1 : 1 ≤ h) (hp : p < 2 * h + 1) :
    Tally.gamesAs .home p (placesInRotation (2 * h + 1))
        + (if p % 2 = 1 ∧ (p + (2 * h + 1)) % 4 = 0 then 1 else 0)
      = h + if p % 4 = 2 then 1 else 0 := by
  have h2 : 2 ≤ 2 * h + 1 := by omega
  have hplayed : Tally.gamesAs .home p (placesInRotation (2 * h + 1))
      = (slots h).countP fun x =>
          (slot h x.1 x.2).1 == p && !((slot h x.1 x.2).2 == 2 * h + 1) := by
    rw [Tally.gamesAs, countP_placesInRotation h2, halfway_of_odd]
    refine List.countP_congr fun x hx => ?_
    obtain ⟨ht, hi⟩ := mem_slots.mp hx
    have hrange := slot_range ht hi
    rw [Bool.and_eq_true, Bool.and_eq_true, taken_iff h2, halfway_of_odd, Match.player, matchOf,
      beq_iff_eq, Bool.not_eq_true', beq_eq_false_iff_ne]
    dsimp only
    omega
  have hall : (slots h).countP (fun x => (slot h x.1 x.2).1 == p)
      = (slots h).countP (fun x => (slot h x.1 x.2).1 == p && !((slot h x.1 x.2).2 == 2 * h + 1))
        + (slots h).countP fun x => (slot h x.1 x.2).1 == p && (slot h x.1 x.2).2 == 2 * h + 1 := by
    rw [← countP_or_of_disjoint fun x _ hx => by simp_all]
    exact List.countP_congr fun x _ => by
      cases (slot h x.1 x.2).1 == p <;> cases (slot h x.1 x.2).2 == 2 * h + 1 <;> rfl
  rw [countP_home_slots (by omega), countP_home_bye hp, ← hplayed] at hall
  by_cases hloses : LosesHome (2 * h + 1) p
  · rw [if_pos hloses] at hall
    unfold LosesHome at hloses
    split <;> split <;> omega
  · rw [if_neg hloses] at hall
    unfold LosesHome at hloses
    split <;> split <;> omega

/-! ## 4. The last turn and its repair -/

/-- **In the last turn even places are at home**, and the numbers of the two places sum up to that
of the participants. -/
theorem slot_last {h i : Nat} (hi : i ≤ h) (hhome : (slot h (2 * h) i).1 < 2 * h + 1)
    (hguest : (slot h (2 * h) i).2 < 2 * h + 1) :
    (slot h (2 * h) i).1 % 2 = 0 ∧ (slot h (2 * h) i).1 + (slot h (2 * h) i).2 = 2 * h + 1 := by
  rcases slot_cases (Nat.le_refl (2 * h)) hi with hc | hc | ⟨e, hc⟩ <;> omega

/-- Every even place but the first has its home match in the last turn. -/
theorem exists_slot_last {h p : Nat} (hp : p < 2 * h + 1) (hpos : 0 < p) (heven : p % 2 = 0) :
    ∃ i, i ≤ h ∧ (slot h (2 * h) i).1 = p ∧ (slot h (2 * h) i).2 + p = 2 * h + 1 := by
  obtain ⟨i, hi, hhome⟩ := (exists_home_iff (h := h) (t := 2 * h) (k := p - 1) (Nat.le_refl _)
    (by omega)).mpr (by omega)
  have hhome : (slot h (2 * h) i).1 = p := by omega
  refine ⟨i, hi, hhome, ?_⟩
  rcases slot_cases (Nat.le_refl (2 * h)) hi with hc | hc | ⟨e, hc⟩ <;> omega

/-- The places that are at home too often. -/
theorem mem_surplus_iff {h p : Nat} (h1 : 1 ≤ h) (hp : p < 2 * h + 1) :
    p ∈ Balance.surplus (placesInRotation (2 * h + 1)) ↔ p % 4 = 2 := by
  have hround := placesInRotation_isRound (n := 2 * h + 1) (by omega)
  have hdiff := allDifferent_range (2 * h + 1)
  have hlen : 2 ≤ (List.range (2 * h + 1)).length := by
    rw [List.length_range]
    omega
  have hplayers := hround.length_players hdiff hlen
  have hmem := (hround.mem_players_iff hdiff hlen).mpr (List.mem_range.mpr hp)
  have hhome := gamesAs_home_of_odd h1 hp
  have hguest := hround.gamesAs_add hdiff (List.mem_range.mpr hp)
  rw [List.length_range] at hguest hplayers
  rw [Balance.mem_surplus_iff, hplayers]
  simp only [Tally.isEven, Bool.and_eq_true, decide_eq_true_eq, hmem, true_and]
  split at hhome <;> split at hhome <;> omega

/-- Being at home too often is having more home matches than half of all. -/
theorem mem_surplus_iff_home {h p : Nat} (h1 : 1 ≤ h) (hp : p < 2 * h + 1) :
    p ∈ Balance.surplus (placesInRotation (2 * h + 1))
      ↔ h < Tally.gamesAs .home p (placesInRotation (2 * h + 1)) := by
  have hhome := gamesAs_home_of_odd h1 hp
  rw [mem_surplus_iff h1 hp]
  split at hhome <;> split at hhome <;> omega

/-- The match of the slot is due to be swapped: it is one of the last turn, its home place is at
home too often, and it is played. -/
def isDueAt (h : Nat) (x : Nat × Nat) : Bool :=
  Balance.isDue (2 * h + 1) (Balance.surplus (placesInRotation (2 * h + 1))) (matchOf h x)
    && taken (2 * h + 1) x

theorem isDueAt_iff {h t i : Nat} (h1 : 1 ≤ h) :
    isDueAt h (t, i) = true ↔ t = 2 * h ∧ (slot h t i).1 % 4 = 2 ∧ (slot h t i).1 < 2 * h + 1 ∧
      (slot h t i).2 < 2 * h + 1 := by
  have htaken : taken (2 * h + 1) (t, i) = true
      ↔ (slot h t i).1 < 2 * h + 1 ∧ (slot h t i).2 < 2 * h + 1 := by
    rw [taken_iff (by omega), halfway_of_odd]
  have hturn : equals (t + 1) (2 * h + 1) = true ↔ t = 2 * h := by
    rw [equals_nat, beq_iff_eq]
    omega
  rw [isDueAt, Balance.isDue, matchOf, Bool.and_eq_true, Bool.and_eq_true, htaken,
    List.contains_iff_mem, hturn]
  constructor
  · rintro ⟨⟨hlast, hahead⟩, hplayed⟩
    exact ⟨hlast, (mem_surplus_iff h1 hplayed.1).mp hahead, hplayed⟩
  · rintro ⟨hlast, hmod, hplayed⟩
    exact ⟨⟨hlast, (mem_surplus_iff h1 hplayed.1).mpr hmod⟩, hplayed⟩

/-- Whose home match is swapped. -/
theorem countP_due_home {h p : Nat} (h1 : 1 ≤ h) (hp : p < 2 * h + 1) :
    (slots h).countP (fun x => isDueAt h x && (slot h x.1 x.2).1 == p)
      = if p % 4 = 2 then 1 else 0 := by
  split
  · obtain ⟨i, hi, hhome, hguest⟩ := exists_slot_last hp (by omega) (by omega)
    refine countP_eq_one_of_unique (nodup_slots h) (x := (2 * h, i)) (mem_slots.mpr ⟨?_, hi⟩) ?_
    · exact Nat.le_refl _
    rintro ⟨s, j⟩ hx
    obtain ⟨hs, hj⟩ : s ≤ 2 * h ∧ j ≤ h := mem_slots.mp hx
    rw [Bool.and_eq_true, isDueAt_iff h1, beq_iff_eq]
    dsimp only
    constructor
    · rintro ⟨⟨rfl, -⟩, hhome'⟩
      exact congrArg (_, ·) (place_unique hs hj hi (Or.inl hhome') (Or.inl hhome))
    · intro heq
      obtain ⟨rfl, rfl⟩ := Prod.mk.inj heq
      refine ⟨⟨rfl, ?_, ?_, ?_⟩, hhome⟩ <;> omega
  · refine List.countP_eq_zero.mpr ?_
    rintro ⟨s, j⟩ hx hdue
    obtain ⟨hs, hj⟩ : s ≤ 2 * h ∧ j ≤ h := mem_slots.mp hx
    rw [Bool.and_eq_true, isDueAt_iff h1, beq_iff_eq] at hdue
    dsimp only at hdue
    omega

/-- Whose match as guest is swapped. -/
theorem countP_due_guest {h p : Nat} (h1 : 1 ≤ h) (hp : p < 2 * h + 1) :
    (slots h).countP (fun x => isDueAt h x && (slot h x.1 x.2).2 == p)
      = if p % 2 = 1 ∧ (p + (2 * h + 1)) % 4 = 0 then 1 else 0 := by
  split
  · obtain ⟨i, hi, hhome, hguest⟩ :=
      exists_slot_last (h := h) (p := 2 * h + 1 - p) (by omega) (by omega) (by omega)
    refine countP_eq_one_of_unique (nodup_slots h) (x := (2 * h, i)) (mem_slots.mpr ⟨?_, hi⟩) ?_
    · exact Nat.le_refl _
    rintro ⟨s, j⟩ hx
    obtain ⟨hs, hj⟩ : s ≤ 2 * h ∧ j ≤ h := mem_slots.mp hx
    rw [Bool.and_eq_true, isDueAt_iff h1, beq_iff_eq]
    dsimp only
    constructor
    · rintro ⟨⟨rfl, -⟩, hguest'⟩
      refine congrArg (_, ·) (place_unique (p := p) hs hj hi (Or.inr hguest') (Or.inr ?_))
      omega
    · intro heq
      obtain ⟨rfl, rfl⟩ := Prod.mk.inj heq
      refine ⟨⟨rfl, ?_, ?_, ?_⟩, ?_⟩ <;> omega
  · refine List.countP_eq_zero.mpr ?_
    rintro ⟨s, j⟩ hx hdue
    obtain ⟨hs, hj⟩ : s ≤ 2 * h ∧ j ≤ h := mem_slots.mp hx
    rw [Bool.and_eq_true, isDueAt_iff h1, beq_iff_eq] at hdue
    dsimp only at hdue
    obtain ⟨⟨rfl, hmod, hhome, hguest⟩, hpguest⟩ := hdue
    have hsum := (slot_last hj hhome hguest).2
    omega

/-- **After the repair everybody is at home in half of the matches.** -/
theorem gamesAs_home_repaired {h p : Nat} (h1 : 1 ≤ h) (hp : p < 2 * h + 1) :
    Tally.gamesAs .home p (places (2 * h + 1)) = h := by
  have h2 : 2 ≤ 2 * h + 1 := by omega
  have hlast : seats (2 * h + 1) - 1 = 2 * h + 1 := by
    unfold seats
    omega
  have hslots : ∀ f : Match Nat Nat → Bool,
      (placesInRotation (2 * h + 1)).countP (fun m => Balance.isDue (2 * h + 1)
          (Balance.surplus (placesInRotation (2 * h + 1))) m && f m)
        = (slots h).countP fun x => isDueAt h x && f (matchOf h x) := by
    intro f
    rw [countP_placesInRotation h2, halfway_of_odd]
    refine List.countP_congr fun x _ => ?_
    rw [isDueAt, Bool.and_right_comm]
  have hswap := countP_home_swapped (Balance.isDue (2 * h + 1)
    (Balance.surplus (placesInRotation (2 * h + 1)))) p (placesInRotation (2 * h + 1))
  rw [hslots fun m => m.home == p, hslots fun m => m.guest == p] at hswap
  have hhome := countP_due_home h1 hp
  have hguest := countP_due_guest h1 hp
  have hbefore := gamesAs_home_of_odd h1 hp
  rw [places, if_neg (by omega), hlast, Balance.repaired]
  simp only [matchOf] at hswap
  omega

/-! ## 5. Balance -/

/-- **The schedule of the places is balanced.** -/
theorem places_isBalanced {n : Nat} (h2 : 2 ≤ n) : IsBalanced (List.range n) (places n) := by
  refine (places_isSingleRound h2).round.isBalanced_of_home (allDifferent_range n) fun p hp => ?_
  have hp := List.mem_range.mp hp
  rw [List.length_range]
  rcases Nat.mod_two_eq_zero_or_one n with heven | hodd
  · obtain ⟨h, rfl⟩ : ∃ h, n = 2 * h + 2 := ⟨n / 2 - 1, by omega⟩
    have hhome := gamesAs_home_of_even hp
    rw [places, if_pos heven]
    omega
  · obtain ⟨h, rfl⟩ : ∃ h, n = 2 * h + 1 := ⟨n / 2, by omega⟩
    have hhome := gamesAs_home_repaired (by omega) hp
    omega

end Matchday.Circle
