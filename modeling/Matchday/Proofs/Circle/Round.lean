/-
# The circle makes a round

The schedule of `n` participants is first worked out on their places `0, …, n - 1`
(`placesInRotation`, and `places` once the last turn is balanced).  With an odd `n` the seat
numbered `n` is vacant.  That every two places meet once and none is met twice in a turn comes from
the slots of `Meetings.lean`; the repair of the last turn only swaps matches.  So `places` is a
single round (`places_isSingleRound`).

Participants who are different from each other and of whom none is the bye take their places by a
renaming (`Seating.lean`), which makes their schedule a single round of their own.
-/
import Matchday.Proofs.Circle.Meetings
import Matchday.Proofs.Rearrangement
import Matchday.Proofs.Renaming

namespace Matchday.Circle

/-! ## 1. The rotation on places -/

/-- The rotation of `n` participants by place.  Seats from `n` on are vacant. -/
def placesInRotation (n : Nat) : List (Match Nat Nat) := onSeats (n ≤ ·) (seats n)

/-- The schedule of `n` participants by place. -/
def places (n : Nat) : List (Match Nat Nat) :=
  if n % 2 = 0 then placesInRotation n else Balance.repaired (seats n - 1) (placesInRotation n)

/-- Half of the seats, less one. -/
def halfway (n : Nat) : Nat := (n - 1) / 2

theorem seats_eq {n : Nat} (h2 : 2 ≤ n) : seats n = 2 * halfway n + 2 := by
  unfold seats halfway
  omega

theorem turnCount_eq {n : Nat} (h2 : 2 ≤ n) : turnCount n = 2 * halfway n + 1 := by
  unfold turnCount halfway
  split <;> omega

/-- The slot is played: both its seats are taken. -/
def taken (n : Nat) (x : Nat × Nat) : Bool := isPlayed (n ≤ ·) (slot (halfway n) x.1 x.2)

theorem taken_iff {n : Nat} (h2 : 2 ≤ n) {x : Nat × Nat} :
    taken n x = true ↔ (slot (halfway n) x.1 x.2).1 < n ∧ (slot (halfway n) x.1 x.2).2 < n := by
  have hseat : ∀ k : Nat, (k == 0 || !decide (n ≤ k)) = true ↔ k < n := by
    intro k
    rw [Bool.or_eq_true, beq_iff_eq, Bool.not_eq_true', decide_eq_false_iff_not]
    omega
  rw [taken, isPlayed, Bool.and_eq_true, hseat, hseat]

/-- The rotation lists the slots that are played. -/
theorem placesInRotation_eq {n : Nat} (h2 : 2 ≤ n) :
    placesInRotation n
      = ((slots (halfway n)).filter (taken n)).map (matchOf (halfway n)) := by
  rw [placesInRotation, seats_eq h2, onSeats_eq]
  rfl

/-- Matches of the rotation are counted as slots. -/
theorem countP_placesInRotation {n : Nat} (h2 : 2 ≤ n) (f : Match Nat Nat → Bool) :
    (placesInRotation n).countP f
      = (slots (halfway n)).countP fun x => f (matchOf (halfway n) x) && taken n x := by
  rw [placesInRotation_eq h2, List.countP_map, List.countP_filter]
  rfl

/-- A match of the rotation comes from a slot that is played. -/
theorem exists_slot_of_mem {n : Nat} (h2 : 2 ≤ n) {m : Match Nat Nat}
    (hm : m ∈ placesInRotation n) :
    ∃ t i, t ≤ 2 * halfway n ∧ i ≤ halfway n ∧ m = matchOf (halfway n) (t, i) ∧
      (slot (halfway n) t i).1 < n ∧ (slot (halfway n) t i).2 < n := by
  rw [placesInRotation_eq h2] at hm
  obtain ⟨x, hx, rfl⟩ := List.mem_map.mp hm
  obtain ⟨hx, htaken⟩ := List.mem_filter.mp hx
  obtain ⟨ht, hi⟩ := mem_slots.mp hx
  obtain ⟨h₁, h₂⟩ := (taken_iff h2).mp htaken
  exact ⟨x.1, x.2, ht, hi, rfl, h₁, h₂⟩

/-- Matches of the rotation are the slots that are played. -/
theorem mem_placesInRotation {n : Nat} (h2 : 2 ≤ n) {m : Match Nat Nat} :
    m ∈ placesInRotation n ↔
      ∃ t i, t ≤ 2 * halfway n ∧ i ≤ halfway n ∧ m = matchOf (halfway n) (t, i) ∧
        (slot (halfway n) t i).1 < n ∧ (slot (halfway n) t i).2 < n := by
  refine ⟨exists_slot_of_mem h2, ?_⟩
  rintro ⟨t, i, ht, hi, rfl, hplayed⟩
  rw [placesInRotation_eq h2]
  refine List.mem_map_of_mem (List.mem_filter.mpr ⟨mem_slots.mpr ⟨ht, hi⟩, ?_⟩)
  exact (taken_iff h2).mpr hplayed

/-! ## 2. It is a round -/

/-- Two places meet once. -/
theorem countP_isBetween {n p q : Nat} (h2 : 2 ≤ n) (hq : q < n) (hpq : p < q) :
    (placesInRotation n).countP (Match.isBetween p q) = 1 := by
  have hseats : q ≤ 2 * halfway n + 1 := by
    unfold halfway
    omega
  obtain ⟨t, i, ht, hi, hti⟩ := exists_slot hseats hpq
  have hbetween : ∀ x : Nat × Nat, Match.isBetween p q (matchOf (halfway n) x) = true
      ↔ Seats (halfway n) x.1 x.2 p q := by
    intro x
    simp only [Match.isBetween, matchOf, Bool.or_eq_true, Bool.and_eq_true, beq_iff_eq, Seats]
  rw [countP_placesInRotation h2]
  refine countP_eq_one_of_unique (nodup_slots _) (x := (t, i)) (mem_slots.mpr ⟨ht, hi⟩) ?_
  rintro ⟨s, j⟩ hx
  obtain ⟨hs, hj⟩ := mem_slots.mp hx
  rw [Bool.and_eq_true, hbetween, taken_iff h2]
  constructor
  · rintro ⟨hsj, -⟩
    obtain rfl : s = t := turn_unique hs ht hj hi hsj hti
    obtain rfl : j = i := by
      refine place_unique (p := p) hs hj hi ?_ ?_
      · exact hsj.imp And.left And.right
      · exact hti.imp And.left And.right
    rfl
  · intro heq
    obtain ⟨rfl, rfl⟩ := Prod.mk.inj heq
    refine ⟨hti, ?_⟩
    dsimp only
    rcases hti with ⟨h₁, h₂⟩ | ⟨h₁, h₂⟩ <;> omega

/-- No place is met twice in a turn. -/
theorem countP_involves_ofTurn {n : Nat} (h2 : 2 ≤ n) (t p : Nat) :
    (Schedule.ofTurn (placesInRotation n) t).countP (Match.involves p) ≤ 1 := by
  rw [Schedule.ofTurn_eq_filter (equals_nat_self t), List.countP_filter,
    countP_placesInRotation h2]
  refine countP_le_one (nodup_slots _) ?_
  rintro ⟨s, i⟩ hx ⟨s', j⟩ hy hpx hpy
  obtain ⟨hs, hi⟩ := mem_slots.mp hx
  obtain ⟨-, hj⟩ := mem_slots.mp hy
  simp only [matchOf, Match.involves, Bool.and_eq_true, Bool.or_eq_true, beq_iff_eq] at hpx hpy
  obtain rfl : s = s' := by omega
  exact congrArg (s, ·) (place_unique hs hi hj hpx.1.1 hpy.1.1)

/-- **The rotation is a round of the places.** -/
theorem placesInRotation_isRound {n : Nat} (h2 : 2 ≤ n) :
    IsRound (List.range n) (placesInRotation n) where
  home_mem := by
    intro m hm
    obtain ⟨t, i, -, -, rfl, hhome, -⟩ := exists_slot_of_mem h2 hm
    exact List.mem_range.mpr hhome
  guest_mem := by
    intro m hm
    obtain ⟨t, i, -, -, rfl, -, hguest⟩ := exists_slot_of_mem h2 hm
    exact List.mem_range.mpr hguest
  not_self := by
    intro m hm
    obtain ⟨t, i, ht, hi, rfl, -, -⟩ := exists_slot_of_mem h2 hm
    exact beq_false_of_ne (slot_range ht hi).2.2
  meet_once := by
    intro p hp q hq hpq
    have hne : p ≠ q := ne_of_beq_false hpq
    rcases Nat.lt_or_gt_of_ne hne with hlt | hgt
    · exact countP_isBetween h2 (List.mem_range.mp hq) hlt
    · rw [← countP_isBetween h2 (List.mem_range.mp hp) hgt]
      exact List.countP_congr fun m _ => by rw [Match.isBetween, Bool.or_comm, Match.isBetween]
  once_a_turn := fun t p _ => countP_involves_ofTurn h2 t p

/-- Turns ascend in the rotation. -/
theorem ascending_placesInRotation {n : Nat} (h2 : 2 ≤ n) :
    ((placesInRotation n).map (·.turn)).Pairwise (· ≤ ·) := by
  have hslots : ((slots (halfway n)).map Prod.fst).Pairwise (· ≤ ·) := by
    rw [slots, List.map_flatMap, List.pairwise_flatMap]
    refine ⟨fun t _ => ?_, ?_⟩
    · rw [List.map_map, List.pairwise_map]
      exact List.pairwise_of_forall fun _ _ => Nat.le_refl t
    · refine List.pairwise_lt_range.imp fun {s t} hst x hx y hy => ?_
      rw [List.map_map] at hx hy
      obtain ⟨i, -, rfl⟩ := List.mem_map.mp hx
      obtain ⟨j, -, rfl⟩ := List.mem_map.mp hy
      exact Nat.le_of_lt hst
  rw [placesInRotation_eq h2, List.map_map, List.pairwise_map]
  refine (List.pairwise_map.mp hslots).sublist List.filter_sublist |>.imp ?_
  exact fun h => Nat.succ_le_succ h

/-- **The rotation is a single round of the places.** -/
theorem placesInRotation_isSingleRound {n : Nat} (h2 : 2 ≤ n) :
    IsSingleRound (List.range n) 1 (placesInRotation n) := by
  refine (placesInRotation_isRound h2).isSingleRound (allDifferent_range n) ?_
    (ascending_placesInRotation h2) ?_
  · rwa [List.length_range]
  · intro m hm
    obtain ⟨t, i, ht, -, rfl, -, -⟩ := exists_slot_of_mem h2 hm
    rw [List.length_range, turnCount_eq h2, matchOf]
    dsimp only
    omega

/-- **The schedule is a single round of the places.** -/
theorem places_isSingleRound {n : Nat} (h2 : 2 ≤ n) :
    IsSingleRound (List.range n) 1 (places n) := by
  unfold places
  split
  · exact placesInRotation_isSingleRound h2
  · exact (placesInRotation_isSingleRound h2).turned (Balance.turned_repaired _ _)

end Matchday.Circle
