/-
# Taking seats

Participants take the places of the schedule in their order.  If none of them is the bye, exactly
the seats without a participant are vacant; if they are different from each other, whatever is
found by comparing seats is found by comparing participants.  So the schedule of the circle is the
one by place, with every place renamed (`plan_eq_places`), and what holds of places holds of
participants.

That is said of any single round whose places are taken (`Schedule.taken`): it stays a single round
(`taken_isSingleRound`) and balanced (`taken_isBalanced`), and each participant who is equal to
himself has the roles and the streaks of his place (`taken_roles`, `taken_lengths`).  Whoever is not
is never found to have any, since they are found by asking for equality.
-/
import Matchday.Proofs.Circle.Round
import Matchday.Proofs.Keys
import Matchday.Proofs.Roles
import Matchday.Proofs.Streaks

namespace Matchday

/-- A schedule of places, taken by participants in their order. -/
def Schedule.taken (ps : List Value) (ms : List (Match Nat Nat)) : List (Match Nat Value) :=
  ms.map (·.map id (Circle.sitting ps))

namespace Circle

variable {ps : List Value}

/-! ## 1. Seats and participants -/

theorem isBye_iff {v : Value} : isBye v = true ↔ v = .bye := by
  cases v <;> simp [isBye]

theorem sitting_of_lt {i : Nat} (hi : i < ps.length) : sitting ps i = ps[i] := by
  rw [sitting, List.getD_eq_getElem?_getD, List.getElem?_eq_getElem hi, Option.getD_some]

/-- Beyond the participants sits the bye. -/
theorem sitting_of_le {i : Nat} (hi : ps.length ≤ i) : sitting ps i = .bye := by
  rw [sitting, List.getD_eq_getElem?_getD, List.getElem?_eq_none hi, Option.getD_none]

/-- Under other names everybody has the same seat. -/
theorem sitting_map {f : Value → Value} {i : Nat} (hi : i < ps.length) :
    sitting (ps.map f) i = f (sitting ps i) := by
  rw [sitting_of_lt hi, sitting_of_lt (by rwa [List.length_map]), List.getElem_map]

/-- Without the bye among the participants, the seats beyond them are the vacant ones. -/
theorem isBye_sitting (hbye : .bye ∉ ps) (i : Nat) :
    isBye (sitting ps i) = decide (ps.length ≤ i) := by
  by_cases hi : i < ps.length
  · have hne : ¬ isBye (sitting ps i) = true := by
      rw [isBye_iff, sitting_of_lt hi]
      intro h
      exact hbye (h ▸ List.getElem_mem hi)
    rw [Bool.eq_false_iff.mpr hne, decide_eq_false (by omega)]
  · rw [sitting_of_le (by omega), decide_eq_true (by omega)]
    rfl

/-- Everybody has a seat. -/
theorem map_sitting_range (ps : List Value) : (List.range ps.length).map (sitting ps) = ps := by
  refine List.ext_getElem (by simp) fun i hi _ => ?_
  rw [List.getElem_map, List.getElem_range, sitting_of_lt (by simpa using hi)]

/-- Everybody has a place. -/
theorem exists_place_of_mem {p : Value} (hp : p ∈ ps) : ∃ i, i < ps.length ∧ sitting ps i = p := by
  rw [← map_sitting_range ps] at hp
  obtain ⟨i, hi, rfl⟩ := List.mem_map.mp hp
  exact ⟨i, List.mem_range.mp hi, rfl⟩

/-- Participants are counted by their places. -/
theorem countP_eq_countP_sitting (ps : List Value) (f : Value → Bool) :
    ps.countP f = (List.range ps.length).countP fun i => f (sitting ps i) := by
  calc ps.countP f = ((List.range ps.length).map (sitting ps)).countP f := by rw [map_sitting_range]
    _ = _ := List.countP_map

theorem sum_map_eq_sum_sitting (ps : List Value) (f : Value → Nat) :
    (ps.map f).sum = ((List.range ps.length).map fun i => f (sitting ps i)).sum := by
  calc (ps.map f).sum = (((List.range ps.length).map (sitting ps)).map f).sum := by
        rw [map_sitting_range]
    _ = _ := by rw [List.map_map]; rfl

/-- **Different participants are told apart by their seats.** -/
theorem tellsApart_sitting (hd : AllDifferent ps) :
    TellsApart (· ∈ List.range ps.length) (sitting ps) := by
  intro i hi j hj
  have hi := List.mem_range.mp hi
  have hj := List.mem_range.mp hj
  rw [sitting_of_lt hi, sitting_of_lt hj]
  rcases Nat.lt_trichotomy i j with hlt | rfl | hgt
  · rw [List.pairwise_iff_getElem.mp hd i j hi hj hlt, beq_false_of_ne (by omega)]
  · rw [BEq.rfl, BEq.rfl]
  · rw [BEq.comm, List.pairwise_iff_getElem.mp hd j i hj hi hgt, beq_false_of_ne (by omega)]

theorem equals_self_sitting (hrefl : ∀ p ∈ ps, equals p p = true) {i : Nat} (hi : i < ps.length) :
    equals (sitting ps i) (sitting ps i) = true := by
  rw [sitting_of_lt hi]
  exact hrefl _ (List.getElem_mem hi)

/-- The one who is equal to a participant who is equal to himself has his place. -/
theorem equals_sitting_self (hd : AllDifferent ps) {i : Nat} (hi : i < ps.length)
    (hself : equals (sitting ps i) (sitting ps i) = true) :
    ∀ j, j ∈ List.range ps.length → equals (sitting ps j) (sitting ps i) = equals j i :=
  fun j hj => by
    rw [equals_eq_beq hself, tellsApart_sitting hd hj (List.mem_range.mpr hi), equals_nat]

/-- **A single round of places is a single round of the participants who take them.** -/
theorem taken_isSingleRound (hd : AllDifferent ps) {first : Nat} {ms : List (Match Nat Nat)}
    (h : IsSingleRound (List.range ps.length) first ms) :
    IsSingleRound ps first (Schedule.taken ps ms) := by
  have := h.map (tellsApart_sitting hd)
  rwa [map_sitting_range] at this

/-- Turns and participants are written in one go. -/
theorem fixtures_taken (ps : List Value) (ms : List (Match Nat Nat)) :
    Schedule.fixtures (Schedule.taken ps ms)
      = ms.map (·.map (fun k : Nat => .int k) (sitting ps)) := by
  rw [Schedule.fixtures, Schedule.taken, List.map_map]
  rfl

/-- The players of a schedule of places are participants. -/
theorem mem_of_mem_taken {ms : List (Match Nat Nat)} {first : Nat} (hd : AllDifferent ps)
    (h : IsSingleRound (List.range ps.length) first ms) :
    ∀ m ∈ Schedule.fixtures (Schedule.taken ps ms), m.home ∈ ps ∧ m.guest ∈ ps := by
  intro m' hm'
  obtain ⟨m, hm, rfl⟩ := List.mem_map.mp hm'
  exact (taken_isSingleRound hd h).round.players_mem m hm

/-- **A balanced round of places is balanced for the participants who take them.** -/
theorem taken_isBalanced (hd : AllDifferent ps) {first : Nat} {ms : List (Match Nat Nat)}
    (h : IsSingleRound (List.range ps.length) first ms)
    (hb : IsBalanced (List.range ps.length) ms) :
    IsBalanced ps (Schedule.fixtures (Schedule.taken ps ms)) := by
  have hmap := hb.map (f := fun k : Nat => Value.int k) (tellsApart_sitting hd) h.round.players_mem
  rwa [map_sitting_range, ← fixtures_taken] at hmap

/-- **Nobody is found unbalanced** among participants who take the places of a balanced single round
and serve as keys. -/
theorem taken_unbalancedOfRows (hd : AllDifferent ps) (h2 : 2 ≤ ps.length)
    (hkey : ∀ p ∈ ps, p.isKey = true) {first : Nat} {ms : List (Match Nat Nat)}
    (h : IsSingleRound (List.range ps.length) first ms)
    (hb : IsBalanced (List.range ps.length) ms) :
    Tally.unbalancedOfRows ((Schedule.fixtures (Schedule.taken ps ms)).map Row.ofFixture)
      = .ok [] := by
  have hplayers := mem_of_mem_taken hd h
  have hcounted := mapM_counted fun m hm =>
    ⟨hkey _ (hplayers m hm).1, hkey _ (hplayers m hm).2⟩
  have hnone : Tally.unbalanced ms = [] :=
    h.round.unbalanced_eq_nil (allDifferent_range _) (by rwa [List.length_range]) hb
  have hmap := Tally.unbalanced_map (f := fun k : Nat => Value.int k) (tellsApart_sitting hd)
    h.round.players_mem
  rw [hnone, ← fixtures_taken] at hmap
  rw [Tally.unbalancedOfRows, mapM_rows, hcounted]
  exact congrArg Except.ok hmap

section Streaks

variable {first : Nat} {ms : List (Match Nat Nat)} {i : Nat}

/-- **Streaks of a participant are those of his place**, if he is equal to himself. -/
theorem taken_lengths (hd : AllDifferent ps) (h : IsSingleRound (List.range ps.length) first ms)
    (hi : i < ps.length) (hself : equals (sitting ps i) (sitting ps i) = true) (r : Role) :
    Streak.lengths r (sitting ps i) (Schedule.fixtures (Schedule.taken ps ms))
      = Streak.lengths r i ms := by
  rw [fixtures_taken]
  exact Streak.lengths_map (equals_sitting_self hd hi hself) h.round.players_mem r

theorem taken_twos (hd : AllDifferent ps) (h : IsSingleRound (List.range ps.length) first ms)
    (hi : i < ps.length) (hself : equals (sitting ps i) (sitting ps i) = true) :
    Streak.twos (sitting ps i) (Schedule.fixtures (Schedule.taken ps ms)) = Streak.twos i ms := by
  rw [Streak.twos, taken_lengths hd h hi hself, taken_lengths hd h hi hself, Streak.twos]

theorem taken_roles (hd : AllDifferent ps) (h : IsSingleRound (List.range ps.length) first ms)
    (hi : i < ps.length) (hself : equals (sitting ps i) (sitting ps i) = true) :
    Schedule.roles (sitting ps i) (Schedule.taken ps ms) = Schedule.roles i ms :=
  Schedule.roles_map (equals_sitting_self hd hi hself) h.round.players_mem

/-- **Participants have no longer streaks than their places have.** -/
theorem taken_longestOfRows (hd : AllDifferent ps)
    (h : IsSingleRound (List.range ps.length) first ms) {bound : Nat}
    (hle : ∀ i < ps.length, ∀ r, ∀ k ∈ Streak.lengths r i ms, k ≤ bound) {p : Value}
    (hp : p ∈ ps) :
    ∃ home guest, Streak.longestOfRows p
        ((Schedule.fixtures (Schedule.taken ps ms)).map Row.ofFixture) = .ok (home, guest) ∧
      home ≤ bound ∧ guest ≤ bound := by
  obtain ⟨i, hi, rfl⟩ := exists_place_of_mem hp
  have hlongest : ∀ r,
      Streak.longest r (sitting ps i) (Schedule.fixtures (Schedule.taken ps ms)) ≤ bound := by
    refine fun r => Streak.longest_le fun k hk => ?_
    cases hself : equals (sitting ps i) (sitting ps i) with
    | true =>
      rw [taken_lengths hd h hi hself] at hk
      exact hle i hi r k hk
    | false =>
      have hround := (taken_isSingleRound hd h).round.fixtures
      rw [Streak.eq_zero_of_mem_lengths hround.not_equals hself hk]
      exact Nat.zero_le bound
  refine ⟨_, _, ?_, hlongest .home, hlongest .guest⟩
  rw [Streak.longestOfRows, Streak.report_ofFixtures, Streak.report_ofFixtures]
  rfl

end Streaks

/-! ## 2. The schedule -/

/-- The number of the last turn, as a value. -/
theorem int_lastTurn (ps : List Value) (h2 : 2 ≤ ps.length) :
    Value.int (lastTurn ps) = .int ((seats ps.length - 1 : Nat) : Int) := by
  have hpos : 1 ≤ seats ps.length := by
    unfold seats
    omega
  rw [lastTurn, Int.ofNat_sub hpos]
  rfl

/-- The rotation of participants is that of their places. -/
theorem rotation_eq (hbye : .bye ∉ ps) :
    rotation ps = Schedule.fixtures (Schedule.taken ps (placesInRotation ps.length)) := by
  have hvacant : (fun i => isBye (sitting ps i)) = fun i => decide (ps.length ≤ i) :=
    funext (isBye_sitting hbye)
  have hturn : ∀ t, turn ps t = Schedule.fixtures
      (Schedule.taken ps (turnOnSeats (ps.length ≤ ·) (seats ps.length) t)) := by
    intro t
    rw [turn, hvacant, Schedule.fixtures, Schedule.taken, List.map_map]
    rfl
  rw [rotation, placesInRotation, onSeats, Schedule.fixtures, Schedule.taken, List.map_map,
    List.map_flatMap]
  refine congrArg (List.flatMap · _) (funext fun t => ?_)
  rw [hturn, Schedule.fixtures, Schedule.taken, List.map_map]

/-- The repair of participants is that of their places. -/
theorem repaired_eq (hd : AllDifferent ps) (hbye : .bye ∉ ps) (h2 : 2 ≤ ps.length) :
    Balance.repaired (.int (lastTurn ps)) (rotation ps)
      = Schedule.fixtures (Schedule.taken ps
          (Balance.repaired (seats ps.length - 1) (placesInRotation ps.length))) := by
  rw [int_lastTurn ps h2, rotation_eq hbye, fixtures_taken, fixtures_taken]
  exact Balance.repaired_map (keepsEqual_int fun _ => True) (fun _ _ => trivial)
    (tellsApart_sitting hd) (placesInRotation_isRound h2).players_mem trivial

/-- The records of the circle stop nothing. -/
theorem result_plan (ps : List Value) :
    (plan ps).result
      = if ps.length % 2 = 0 then .ok (rotation ps)
        else (rotation ps).mapM Row.counted >>= fun ms =>
          .ok (Balance.repaired (.int (lastTurn ps)) ms) := by
  unfold plan
  rw [Outcome.result_bind]
  split
  · rfl
  · rw [Balance.repair, Outcome.result_bind]
    rfl

/-- **The schedule of different participants is the one by place.**  An odd number of them have to
serve as keys, since their matches are counted. -/
theorem plan_eq_places (h2 : 2 ≤ ps.length) (hd : AllDifferent ps) (hbye : .bye ∉ ps)
    (hkey : ps.length % 2 = 1 → ∀ p ∈ ps, p.isKey = true) :
    (plan ps).result = .ok (Schedule.fixtures (Schedule.taken ps (places ps.length))) := by
  rw [result_plan, places]
  split
  · rw [rotation_eq hbye]
  · have hkey := hkey (by omega)
    have hplayers := mem_of_mem_taken hd (placesInRotation_isSingleRound h2)
    rw [← rotation_eq hbye] at hplayers
    have hcounted : (rotation ps).mapM Row.counted = .ok (rotation ps) :=
      mapM_counted fun m hm => ⟨hkey _ (hplayers m hm).1, hkey _ (hplayers m hm).2⟩
    rw [hcounted, ← repaired_eq hd hbye h2]
    rfl

end Circle
end Matchday
