/-
# The bye among the participants

Nothing keeps the bye from being a participant.  The circle then takes the seat of the bye for a
vacant one and plays no match with it, unless it is the first seat, which is never vacant.  So the
rotation is a part of the one in which all seats are taken (`rotation_eq_part`): a round of those
who are left when the bye is passed over (`rotation_isRound`).
-/
import Matchday.Proofs.Circle.Counts

namespace Matchday.Circle

variable {ps : List Value}

/-! ## 1. Who plays -/

/-- Somebody sits on the seat whom the circle does not take for the bye. -/
def plays (ps : List Value) (i : Nat) : Bool := i == 0 || !isBye (sitting ps i)

/-- The participants without the bye, who may stay only in the first place. -/
def playing (ps : List Value) : List Value := ps.take 1 ++ ps.tail.filter (!isBye ·)

theorem lt_length_of_plays (hne : ps ≠ []) {i : Nat} (h : plays ps i = true) : i < ps.length := by
  refine Nat.lt_of_not_le fun hi => ?_
  have hpos := List.length_pos_iff.mpr hne
  rw [plays, sitting_of_le hi, beq_false_of_ne (by omega)] at h
  cases h

/-- Further seats hold nobody. -/
theorem filter_map_sitting {k : Nat} (hk : ps.length ≤ k) :
    ((List.range k).map (sitting ps)).filter (!isBye ·) = ps.filter (!isBye ·) := by
  obtain ⟨d, rfl⟩ : ∃ d, k = ps.length + d := ⟨k - ps.length, by omega⟩
  have hvacant :
      (((List.range d).map (ps.length + ·)).map (sitting ps)).filter (!isBye ·) = [] := by
    refine List.filter_eq_nil_iff.mpr fun v hv => ?_
    rw [List.map_map] at hv
    obtain ⟨i, -, rfl⟩ := List.mem_map.mp hv
    rw [Function.comp_apply, sitting_of_le (Nat.le_add_right _ _)]
    exact Bool.false_ne_true
  rw [List.range_add, List.map_append, List.filter_append, hvacant, map_sitting_range,
    List.append_nil]

/-- **Who plays** sits on a seat that is not taken for vacant. -/
theorem map_sitting_plays (hne : ps ≠ []) {k : Nat} (hk : ps.length ≤ k) :
    ((List.range k).filter (plays ps)).map (sitting ps) = playing ps := by
  obtain ⟨q, qs, rfl⟩ := List.exists_cons_of_ne_nil hne
  obtain ⟨k, rfl⟩ : ∃ j, k = j + 1 := ⟨k - 1, by rw [List.length_cons] at hk; omega⟩
  have hrest : ((List.range k).filter (plays (q :: qs) ∘ Nat.succ)).map
      (sitting (q :: qs) ∘ Nat.succ) = qs.filter (!isBye ·) := by
    rw [← filter_map_sitting (Nat.le_of_succ_le_succ hk), List.filter_map]
    rfl
  rw [List.range_succ_eq_map, List.filter_cons_of_pos rfl, List.filter_map, List.map_cons,
    List.map_map, hrest]
  rfl

theorem playing_sublist (ps : List Value) : (playing ps).Sublist ps := by
  cases ps with
  | nil => exact List.Sublist.refl []
  | cons q qs => exact List.filter_sublist.cons_cons q

/-- Unless the bye comes second or later, everybody plays. -/
theorem playing_eq (hbye : .bye ∉ ps.tail) : playing ps = ps := by
  cases ps with
  | nil => rfl
  | cons q qs =>
    refine congrArg (q :: ·) (List.filter_eq_self.mpr fun v hv => ?_)
    rw [Bool.not_eq_true', Bool.eq_false_iff, Ne, isBye_iff]
    rintro rfl
    exact hbye hv

/-- **If it does, everybody else plays.** -/
theorem mem_playing_iff (hd : AllDifferent ps) (hbye : .bye ∈ ps.tail) {a : Value} :
    a ∈ playing ps ↔ a ∈ ps ∧ a ≠ .bye := by
  cases ps with
  | nil => exact absurd hbye List.not_mem_nil
  | cons q qs =>
    have hq : q ≠ .bye := by
      rintro rfl
      exact Bool.noConfusion ((allDifferent_cons.mp hd).1 .bye hbye)
    have hfilter : a ∈ qs.filter (!isBye ·) ↔ a ∈ qs ∧ a ≠ .bye := by
      rw [List.mem_filter, Bool.not_eq_true', Bool.eq_false_iff, Ne, isBye_iff]
    have hplaying : a ∈ playing (q :: qs) ↔ a = q ∨ a ∈ qs.filter (!isBye ·) := List.mem_cons
    rw [hplaying, hfilter, List.mem_cons, or_and_right]
    exact or_congr_left (and_iff_left_of_imp fun h => h ▸ hq).symm

theorem length_playing (hd : AllDifferent ps) (hbye : .bye ∈ ps.tail) :
    (playing ps).length + 1 = ps.length := by
  cases ps with
  | nil => exact absurd hbye List.not_mem_nil
  | cons q qs =>
    have hone : qs.countP isBye = 1 := by
      rw [← countP_beq_eq_one (allDifferent_cons.mp hd).2 hbye]
      exact List.countP_congr fun v _ => by cases v <;> exact Iff.rfl
    have hsplit := List.length_eq_countP_add_countP isBye (l := qs)
    have hrest : (qs.filter (!isBye ·)).length = qs.countP fun v => decide ¬ isBye v = true := by
      rw [← List.countP_eq_length_filter]
      exact List.countP_congr fun v _ => by simp
    have hlen : (playing (q :: qs)).length = (qs.filter (!isBye ·)).length + 1 := rfl
    rw [List.length_cons]
    omega

/-! ## 2. The rotation -/

/-- **The rotation is part of that of all seats.** -/
theorem rotation_eq_part (h2 : 2 ≤ ps.length) :
    rotation ps = ((placesInRotation (seats ps.length)).filter fun m =>
      plays ps m.home && plays ps m.guest).map (·.map (fun k : Nat => .int k) (sitting ps)) := by
  have hseats : rotation ps = (onSeats (isBye <| sitting ps ·) (seats ps.length)).map
      (·.map (fun k : Nat => .int k) (sitting ps)) := by
    rw [rotation, onSeats, List.map_flatMap]
    rfl
  have hall : (slots (halfway ps.length)).filter (taken (2 * halfway ps.length + 2))
      = slots (halfway ps.length) := List.filter_eq_self.mpr fun x hx => taken_of_even hx
  rw [hseats, seats_eq h2, onSeats_eq, placesInRotation_eq (by omega), halfway_of_even, hall,
    List.filter_map]
  rfl

/-- **The rotation is a round of those who play.** -/
theorem rotation_isRound (h2 : 2 ≤ ps.length) (hd : AllDifferent ps) :
    IsRound (playing ps) (rotation ps) := by
  have hne : ps ≠ [] := List.ne_nil_of_length_pos (by omega)
  have hle : ps.length ≤ seats ps.length := Nat.le_add_right _ _
  have hpart := (placesInRotation_isRound (Nat.le_trans h2 hle)).part (f := plays ps)
    fun i j hij => congrArg (plays ps) (eq_of_beq hij)
  have htells : TellsApart (· ∈ (List.range (seats ps.length)).filter (plays ps)) (sitting ps) := by
    have hseat : ∀ i ∈ (List.range (seats ps.length)).filter (plays ps),
        i ∈ List.range ps.length := fun i hi =>
      List.mem_range.mpr (lt_length_of_plays hne (List.mem_filter.mp hi).2)
    exact fun i hi j hj => tellsApart_sitting hd (hseat i hi) (hseat j hj)
  have hround := hpart.map (keepsEqual_int _) htells
  rwa [map_sitting_plays hne hle, ← rotation_eq_part h2] at hround

end Matchday.Circle
