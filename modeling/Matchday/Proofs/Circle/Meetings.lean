/-
# Who meets whom on the circle

With `2 * h + 2` seats there are `2 * h + 1` turns of `h + 1` matches.  A match is found by its turn
`t` and its place `i` in the turn (`slot`): place `0` is that of the first seat, which meets seat
`t + 1`.  At the other places the home seat is an even number `e` of steps ahead of seat `t + 1`,
going round the rotating seats, and the guest is `2 * h + 1 - e` steps ahead, which is `e` steps
behind (`slot_pos`).  Since the number of rotating seats is odd, one of the two distances is even,
and so it is always the home seat that has the even one.

Everything else is arithmetic on this description, spelled out in `slot_cases`.

* A seat has one place in a turn (`place_unique`).
* Two seats meet in one turn: the sum of their numbers is twice that of the turn, up to a multiple
  of `2 * h + 1`, and an odd modulus lets a number be halved in one way only (`turn_unique`,
  `exists_slot`).

`onSeats_eq` lists the schedule as the matches of all slots that are played.
-/
import Mathlib.Data.List.Nodup
import Matchday.Circle
import Matchday.Proofs.Round

namespace Matchday.Circle

/-! ## 1. Slots -/

/-- The seats that meet in a turn at a place of the turn, the home seat first. -/
def slot (h t i : Nat) : Nat × Nat :=
  if i = 0 then fixedPair (2 * h + 2) t else foldedPair (2 * h + 2) t i

/-- The seat some steps ahead, going round. -/
theorem rotating_add {h t d : Nat} (ht : t ≤ 2 * h) (hd : d ≤ 2 * h) :
    rotating (2 * h + 2) (t + d) = t + d + 1 ∧ t + d ≤ 2 * h ∨
      rotating (2 * h + 2) (t + d) + 2 * h = t + d ∧ 2 * h < t + d := by
  have hm : 2 * h + 2 - 1 = 2 * h + 1 := by omega
  rw [rotating, hm]
  by_cases hle : t + d ≤ 2 * h
  · rw [Nat.mod_eq_of_lt (by omega)]
    omega
  · rw [Nat.mod_eq_sub_mod (by omega), Nat.mod_eq_of_lt (by omega)]
    omega

/-- The first seat is at home in every other turn. -/
theorem slot_zero {h t : Nat} (ht : t ≤ 2 * h) :
    slot h t 0 = if t % 2 = 0 then (0, t + 1) else (t + 1, 0) := by
  have hr : rotating (2 * h + 2) t = t + 1 := by
    have := rotating_add (d := 0) ht (Nat.zero_le _)
    simp only [Nat.add_zero] at this
    omega
  rw [slot, if_pos rfl, fixedPair, hr]

/-- **Across the circle, the home seat is an even number of steps ahead.** -/
theorem slot_pos {h t i : Nat} (h0 : 0 < i) (hi : i ≤ h) :
    ∃ e, e % 2 = 0 ∧ 0 < e ∧ e ≤ 2 * h ∧ (i = e ∨ i + e = 2 * h + 1) ∧
      slot h t i = (rotating (2 * h + 2) (t + e), rotating (2 * h + 2) (t + (2 * h + 1 - e))) := by
  have hm : t + (2 * h + 2 - 1) - i = t + (2 * h + 1 - i) := by omega
  rw [slot, if_neg (by omega), foldedPair, hm]
  by_cases hp : i % 2 = 0
  · exact ⟨i, by omega, by omega, by omega, Or.inl rfl, by simp only [hp, if_true]⟩
  · have hi' : 2 * h + 1 - (2 * h + 1 - i) = i := by omega
    refine ⟨2 * h + 1 - i, by omega, by omega, by omega, Or.inr (by omega), ?_⟩
    simp only [hp, if_false, hi']

/-- The two seats of a slot, spelled out: the first seat at home, the first seat as guest, and a
pair across the circle. -/
theorem slot_cases {h t i : Nat} (ht : t ≤ 2 * h) (hi : i ≤ h) :
    (i = 0 ∧ t % 2 = 0 ∧ (slot h t i).1 = 0 ∧ (slot h t i).2 = t + 1) ∨
    (i = 0 ∧ t % 2 = 1 ∧ (slot h t i).1 = t + 1 ∧ (slot h t i).2 = 0) ∨
    ∃ e, e % 2 = 0 ∧ 0 < e ∧ e ≤ 2 * h ∧ (i = e ∨ i + e = 2 * h + 1) ∧
      ((slot h t i).1 = t + e + 1 ∧ t + e ≤ 2 * h ∨
        (slot h t i).1 + 2 * h = t + e ∧ 2 * h < t + e) ∧
      ((slot h t i).2 + e = t + 2 * h + 2 ∧ t < e ∨ (slot h t i).2 + e = t + 1 ∧ e ≤ t) := by
  rcases Nat.eq_zero_or_pos i with rfl | h0
  · rw [slot_zero ht]
    by_cases hp : t % 2 = 0
    · simp [hp]
    · have hp' : t % 2 = 1 := by omega
      simp [hp']
  · obtain ⟨e, hpar, he0, he, hie, heq⟩ := slot_pos (t := t) h0 hi
    refine Or.inr (Or.inr ⟨e, hpar, he0, he, hie, ?_⟩)
    have hhome := rotating_add ht he
    have hguest := rotating_add (d := 2 * h + 1 - e) ht (by omega)
    rw [heq]
    dsimp only
    omega

/-- There are no other seats than those of the circle, and nobody meets itself. -/
theorem slot_range {h t i : Nat} (ht : t ≤ 2 * h) (hi : i ≤ h) :
    (slot h t i).1 ≤ 2 * h + 1 ∧ (slot h t i).2 ≤ 2 * h + 1 ∧ (slot h t i).1 ≠ (slot h t i).2 := by
  rcases slot_cases ht hi with hc | hc | ⟨e, hc⟩ <;> omega

/-- The first seat has place zero. -/
theorem slot_fixed {h t i : Nat} (ht : t ≤ 2 * h) (hi : i ≤ h) :
    i = 0 ∧ ((slot h t i).1 = 0 ∧ (slot h t i).2 = t + 1 ∨
        (slot h t i).1 = t + 1 ∧ (slot h t i).2 = 0) ∨
      0 < i ∧ 0 < (slot h t i).1 ∧ 0 < (slot h t i).2 := by
  rcases slot_cases ht hi with hc | hc | ⟨e, hc⟩ <;> omega

/-- Away from the first seat, the numbers of the two seats sum up to twice that of the turn, up to
going round. -/
theorem slot_sum {h t i : Nat} (ht : t ≤ 2 * h) (h0 : 0 < i) (hi : i ≤ h) :
    (slot h t i).1 + (slot h t i).2 = 2 * t + 2 ∨
      (slot h t i).1 + (slot h t i).2 = 2 * t + 2 + (2 * h + 1) ∨
      (slot h t i).1 + (slot h t i).2 + (2 * h + 1) = 2 * t + 2 := by
  rcases slot_cases ht hi with hc | hc | ⟨e, hc⟩ <;> omega

/-! ## 2. Every meeting is found once -/

/-- The two seats of a slot, in either order. -/
def Seats (h t i p q : Nat) : Prop :=
  (slot h t i).1 = p ∧ (slot h t i).2 = q ∨ (slot h t i).1 = q ∧ (slot h t i).2 = p

/-- A rotating seat is met at the place that counts its steps from the turn's own seat, one way or
the other. -/
theorem exists_steps {h t i p : Nat} (ht : t ≤ 2 * h) (hi : i ≤ h) (hp : 0 < p)
    (hpi : (slot h t i).1 = p ∨ (slot h t i).2 = p) :
    ∃ d, d ≤ 2 * h ∧ (i = d ∨ i + d = 2 * h + 1) ∧ (p = t + d + 1 ∨ p + 2 * h = t + d) := by
  rcases slot_cases ht hi with hc | hc | ⟨e, hc⟩
  · exact ⟨0, by omega⟩
  · exact ⟨0, by omega⟩
  · rcases hpi with hpi | hpi
    · exact ⟨e, by omega⟩
    · exact ⟨2 * h + 1 - e, by omega⟩

/-- **A seat has one place in a turn.** -/
theorem place_unique {h t i j p : Nat} (ht : t ≤ 2 * h) (hi : i ≤ h) (hj : j ≤ h)
    (hpi : (slot h t i).1 = p ∨ (slot h t i).2 = p)
    (hpj : (slot h t j).1 = p ∨ (slot h t j).2 = p) : i = j := by
  rcases Nat.eq_zero_or_pos p with rfl | hp
  · have hfi := slot_fixed ht hi
    have hfj := slot_fixed ht hj
    omega
  · obtain ⟨d, hd, hid, hpd⟩ := exists_steps ht hi hp hpi
    obtain ⟨e, he, hje, hpe⟩ := exists_steps ht hj hp hpj
    have hde : d = e := by omega
    omega

/-- **Two seats meet in one turn.** -/
theorem turn_unique {h t s i j p q : Nat} (ht : t ≤ 2 * h) (hs : s ≤ 2 * h) (hi : i ≤ h)
    (hj : j ≤ h) (hti : Seats h t i p q) (hsj : Seats h s j p q) : t = s := by
  unfold Seats at hti hsj
  have hti' := slot_fixed ht hi
  have hsj' := slot_fixed hs hj
  rcases Nat.eq_zero_or_pos i with rfl | h0
  · omega
  · have hj0 : 0 < j := by omega
    have hsum := slot_sum ht h0 hi
    have hsum' := slot_sum hs hj0 hj
    omega

/-- **Any two seats meet.**  The turn is half the sum of their numbers, going round once more where
the sum is odd. -/
theorem exists_slot {h p q : Nat} (hq : q ≤ 2 * h + 1) (hpq : p < q) :
    ∃ t i, t ≤ 2 * h ∧ i ≤ h ∧ Seats h t i p q := by
  unfold Seats
  by_cases hp : p = 0
  · refine ⟨q - 1, 0, by omega, by omega, ?_⟩
    have := slot_fixed (h := h) (t := q - 1) (i := 0) (by omega) (by omega)
    omega
  · by_cases hsum : (p + q) % 2 = 0
    · -- half way between the two, so many steps from either
      obtain ⟨i, hi⟩ : ∃ i, q = p + 2 * i := ⟨(q - p) / 2, by omega⟩
      obtain ⟨t, ht⟩ : ∃ t, p + i = t + 1 := ⟨p + i - 1, by omega⟩
      refine ⟨t, i, by omega, by omega, ?_⟩
      rcases slot_cases (h := h) (t := t) (i := i) (by omega) (by omega) with hc | hc | ⟨e, hc⟩ <;>
        omega
    · -- half way round the other side
      obtain ⟨i, hi⟩ : ∃ i, q + 2 * i = p + 2 * h + 1 := ⟨(p + 2 * h + 1 - q) / 2, by omega⟩
      by_cases hlow : q + i ≤ 2 * h + 1
      · refine ⟨q + i - 1, i, by omega, by omega, ?_⟩
        rcases slot_cases (h := h) (t := q + i - 1) (i := i) (by omega) (by omega) with
          hc | hc | ⟨e, hc⟩ <;> omega
      · refine ⟨q + i - 2 * h - 2, i, by omega, by omega, ?_⟩
        rcases slot_cases (h := h) (t := q + i - 2 * h - 2) (i := i) (by omega) (by omega) with
          hc | hc | ⟨e, hc⟩ <;> omega

/-! ## 3. The schedule as a list of slots -/

/-- All slots, turn by turn. -/
def slots (h : Nat) : List (Nat × Nat) :=
  (List.range (2 * h + 1)).flatMap fun t => (List.range (h + 1)).map fun i => (t, i)

/-- The match of a slot. -/
def matchOf (h : Nat) (x : Nat × Nat) : Match Nat Nat :=
  ⟨x.1 + 1, (slot h x.1 x.2).1, (slot h x.1 x.2).2⟩

theorem mem_slots {h : Nat} {x : Nat × Nat} : x ∈ slots h ↔ x.1 ≤ 2 * h ∧ x.2 ≤ h := by
  obtain ⟨t, i⟩ := x
  simp only [slots, List.mem_flatMap, List.mem_range, List.mem_map, Prod.mk.injEq]
  constructor
  · rintro ⟨s, hs, j, hj, rfl, rfl⟩
    omega
  · rintro ⟨ht, hi⟩
    exact ⟨t, by omega, i, by omega, rfl, rfl⟩

theorem nodup_slots (h : Nat) : (slots h).Nodup := by
  refine List.nodup_flatMap.mpr ⟨fun t _ => ?_, ?_⟩
  · exact List.Nodup.map (fun i j hij => (Prod.mk.inj hij).2) List.nodup_range
  · refine List.nodup_range.imp fun {s t} hst => ?_
    intro x hxs hxt
    obtain ⟨i, -, rfl⟩ := List.mem_map.mp hxs
    obtain ⟨j, -, hj⟩ := List.mem_map.mp hxt
    exact hst (Prod.mk.inj hj).1.symm

/-- The pairs of a turn are those of its slots. -/
theorem pairs_eq (h t : Nat) : pairs (2 * h + 2) t = (List.range (h + 1)).map (slot h t) := by
  have hm : (2 * h + 2) / 2 - 1 = h := by omega
  have hrange : List.range (h + 1) = 0 :: List.range' 1 h := by
    rw [List.range_eq_range', List.range'_succ]
  rw [pairs, hm, hrange, List.map_cons]
  refine congrArg₂ List.cons (by rw [slot, if_pos rfl]) (List.map_congr_left fun i hi => ?_)
  have := (List.mem_range'_1.mp hi).1
  rw [slot, if_neg (by omega)]

/-- **The schedule lists the matches of the slots that are played, in order.** -/
theorem onSeats_eq (vacant : Nat → Bool) (h : Nat) :
    onSeats vacant (2 * h + 2)
      = ((slots h).filter fun x => isPlayed vacant (slot h x.1 x.2)).map (matchOf h) := by
  have hm : 2 * h + 2 - 1 = 2 * h + 1 := by omega
  rw [onSeats, slots, hm, List.filter_flatMap, List.map_flatMap]
  refine congrArg (List.flatMap · _) (funext fun t => ?_)
  rw [turnOnSeats, pairs_eq, List.filter_map, List.filter_map, List.map_map, List.map_map]
  rfl

end Matchday.Circle
