/-
# Numbering turns

A leg counts its turns from one in the order they are played, whatever the schedule called them.
That makes sense when the matches of a turn stand together, which is what `Schedule.InBlocks` says:
turns have ranks that ascend along the schedule, and only a turn itself has its rank.  A new number
is then the place of the rank among all ranks, so that

* different turns get different numbers, and a round stays a round (`keepsEqual_number`);
* the numbers ascend (`ascending_renumbered`);
* there are no more of them than ranks (`Schedule.InBlocks.length_turns_le`).

Together they make any round in blocks a single round (`renumbered_isSingleRound`).
-/
import Mathlib.Data.List.Perm.Subperm
import Matchday.Planner
import Matchday.Proofs.Roles

namespace Matchday

variable {τ α : Type}

/-! ## 1. Blocks -/

/-- **In blocks**: every turn has a rank below `count`, and the ranks ascend along the schedule. -/
def Schedule.InBlocks [BEq τ] [Equality τ] (count : Nat) (ms : List (Match τ α)) : Prop :=
  ∃ rank : τ → Nat, KeepsEqual (Schedule.IsTurn ms) rank ∧
    (ms.map fun m => rank m.turn).Pairwise (· ≤ ·) ∧ ∀ m ∈ ms, rank m.turn < count

/-- Ranks may be counted further than needed. -/
theorem Schedule.InBlocks.mono [BEq τ] [Equality τ] {count count' : Nat} {ms : List (Match τ α)}
    (h : Schedule.InBlocks count ms) (hle : count ≤ count') : Schedule.InBlocks count' ms := by
  obtain ⟨rank, hrank, hasc, hlt⟩ := h
  exact ⟨rank, hrank, hasc, fun m hm => Nat.lt_of_lt_of_le (hlt m hm) hle⟩

/-- Turns in blocks are equal to themselves, as their ranks are. -/
theorem Schedule.InBlocks.equals_self [BEq τ] [Equality τ] {count : Nat} {ms : List (Match τ α)}
    (h : Schedule.InBlocks count ms) : ∀ m ∈ ms, equals m.turn m.turn = true := by
  obtain ⟨rank, hrank, -⟩ := h
  exact fun m hm => hrank.equals_self ⟨m, hm, rfl⟩

section Ranks

variable [BEq τ] {ms : List (Match τ α)} {rank : τ → Nat}

/-- The ranks of the turns of a schedule, each once, in order. -/
theorem map_rank_turns (hrank : TellsApart (Schedule.IsTurn ms) rank) :
    (Schedule.turns ms).map rank = (ms.map fun m => rank m.turn).eraseDups := by
  have hturn : ∀ t ∈ ms.map (·.turn), Schedule.IsTurn ms t := fun t ht => List.mem_map.mp ht
  rw [Schedule.turns, ← eraseDups_map fun s hs t ht => hrank (hturn s hs) (hturn t ht),
    List.map_map]
  rfl

/-- Ranks that ascend along the schedule do so strictly once each stands there once. -/
theorem ascending_eraseDups {ns : List Nat} (h : ns.Pairwise (· ≤ ·)) :
    ns.eraseDups.Pairwise (· < ·) := by
  have hle : ns.eraseDups.Pairwise (· ≤ ·) := h.sublist (eraseDups_sublist ns)
  refine (hle.and (allDifferent_eraseDups ns)).imp fun {a b} hab => ?_
  exact Nat.lt_of_le_of_ne hab.1 (ne_of_beq_false hab.2)

/-- There are no more turns than ranks. -/
theorem Schedule.InBlocks.length_turns_le [Equality τ] [PartialEquivBEq τ] {count : Nat}
    (h : Schedule.InBlocks count ms) : (Schedule.turns ms).length ≤ count := by
  obtain ⟨rank, hrank, -, hlt⟩ := h
  have hrank := hrank.tellsApart
  have hnodup : ((Schedule.turns ms).map rank).Nodup := by
    rw [map_rank_turns hrank]
    exact (allDifferent_eraseDups _).nodup
  have hsub : (Schedule.turns ms).map rank ⊆ List.range count := by
    intro n hn
    rw [map_rank_turns hrank] at hn
    obtain ⟨m, hm, rfl⟩ := List.mem_map.mp ((eraseDups_sublist _).subset hn)
    exact List.mem_range.mpr (hlt m hm)
  have hle := (List.subperm_of_subset hnodup hsub).length_le
  rwa [List.length_map, List.length_range] at hle

/-- The place of a turn is that of its rank. -/
theorem idxOf_turn (hrank : TellsApart (Schedule.IsTurn ms) rank) {t : τ}
    (ht : Schedule.IsTurn ms t) :
    (Schedule.turns ms).idxOf t = (ms.map fun m => rank m.turn).eraseDups.idxOf (rank t) := by
  have hturn : ∀ s ∈ Schedule.turns ms, Schedule.IsTurn ms s := fun s hs =>
    List.mem_map.mp ((eraseDups_sublist _).subset hs)
  rw [← map_rank_turns hrank]
  generalize Schedule.turns ms = ts at hturn
  induction ts with
  | nil => rfl
  | cons s ts ih =>
    rw [List.map_cons, List.idxOf_cons, List.idxOf_cons, hrank (hturn s List.mem_cons_self) ht,
      ih fun u hu => hturn u (List.mem_cons_of_mem s hu)]

end Ranks

/-- A single round is in blocks, its turns being ranked by their numbers. -/
theorem IsSingleRound.inBlocks {ps : List Value} {first : Nat} {ms : List (Match Nat Value)}
    (h : IsSingleRound ps first ms) :
    Schedule.InBlocks (turnCount ps.length) (Schedule.fixtures ms) := by
  obtain ⟨rank, hrank⟩ : ∃ rank : Value → Nat, ∀ k : Nat, rank (.int k) = k - first :=
    ⟨fun t => (t.whole?.getD 0).toNat - first, fun _ => rfl⟩
  refine ⟨rank, ?_, ?_, ?_⟩
  · rintro _ ⟨m', hm', rfl⟩ _ ⟨n', hn', rfl⟩
    obtain ⟨m, hm, rfl⟩ := List.mem_map.mp hm'
    obtain ⟨n, hn, rfl⟩ := List.mem_map.mp hn'
    have hmturn := h.turn_range m hm
    have hnturn := h.turn_range n hn
    rw [Match.turn_map, Match.turn_map, keepsEqual_int (fun _ => True) trivial trivial, hrank,
      hrank, equals_nat, equals_nat, Bool.eq_iff_iff, beq_iff_eq, beq_iff_eq]
    omega
  · rw [Schedule.fixtures, List.map_map, List.pairwise_map]
    refine (List.pairwise_map.mp h.inOrder.ascending).imp fun {m n} hmn => ?_
    rw [Function.comp_apply, Function.comp_apply, Match.turn_map, Match.turn_map, hrank, hrank]
    omega
  · intro m' hm'
    obtain ⟨m, hm, rfl⟩ := List.mem_map.mp hm'
    have hturn := h.turn_range m hm
    rw [Match.turn_map, hrank]
    omega

/-- **Turn by turn, a schedule is in blocks**, the turns being ranked in the order given. -/
theorem Schedule.inBlocks_turnByTurn [BEq τ] [Equality τ] [EquivBEq τ] {ts : List τ}
    (hd : AllDifferent ts) (ms : List (Match τ α)) :
    Schedule.InBlocks ts.length (ts.flatMap (Schedule.ofTurn ms)) := by
  have hany : ∀ m ∈ ts.flatMap (Schedule.ofTurn ms), ts.any (· == m.turn) = true := by
    intro m hm
    obtain ⟨t, ht, hm⟩ := List.mem_flatMap.mp hm
    exact List.any_eq_true.mpr ⟨t, ht, BEq.symm (beq_of_equals (List.mem_filter.mp hm).2)⟩
  have hself : ∀ m ∈ ts.flatMap (Schedule.ofTurn ms), equals m.turn m.turn = true := by
    intro m hm
    obtain ⟨t, -, hm⟩ := List.mem_flatMap.mp hm
    exact equals_self_of_equals ((equals_comm _ _).trans (List.mem_filter.mp hm).2)
  refine ⟨(ts.idxOf ·), ?_, ?_, fun m hm => idxOf_lt_of_any (hany m hm)⟩
  · rintro _ ⟨m, hm, rfl⟩ _ ⟨n, hn, rfl⟩
    rw [equals_nat, equals_eq_beq (hself n hn)]
    exact beq_idxOf_iff (hany m hm) (hany n hn)
  · have hrank : ∀ t, ∀ m ∈ Schedule.ofTurn ms t, ts.idxOf m.turn = ts.idxOf t := fun t m hm =>
      idxOf_congr (beq_of_equals (List.mem_filter.mp hm).2) ts
    rw [List.pairwise_map, List.pairwise_flatMap]
    constructor
    · intro t _
      refine List.pairwise_of_forall_mem_list fun m hm n hn => Nat.le_of_eq ?_
      exact (hrank t m hm).trans (hrank t n hn).symm
    · refine List.pairwise_iff_getElem.mpr fun i j hi hj hij m hm n hn => ?_
      dsimp only
      rw [hrank _ m hm, hrank _ n hn, hd.idxOf_getElem hi, hd.idxOf_getElem hj]
      omega

/-! ## 2. New numbers -/

section Numbers

variable {ms : List Fixture} {ps : List Value}

/-- The number of a turn. -/
def numberOf (ms : List Fixture) (t : Value) : Nat := (Schedule.turns ms).idxOf t + 1

theorem renumbered_eq (ms : List Fixture) :
    Planner.renumbered ms = ms.map (·.map (numberOf ms) id) := rfl

/-- **New numbers tell turns apart.** -/
theorem tellsApart_number (ms : List Fixture) :
    TellsApart (Schedule.IsTurn ms) (numberOf ms) := by
  have hany : ∀ t, Schedule.IsTurn ms t → (Schedule.turns ms).any (· == t) = true := by
    rintro t ⟨m, hm, rfl⟩
    rw [Schedule.turns, any_beq_eraseDups]
    exact List.any_eq_true.mpr ⟨m.turn, List.mem_map_of_mem hm, BEq.rfl⟩
  intro s hs t ht
  rw [← beq_idxOf_iff (hany s hs) (hany t ht), numberOf, numberOf, Bool.eq_iff_iff, beq_iff_eq,
    beq_iff_eq]
  exact Nat.succ_inj

/-- Turns that are equal to themselves keep being equal. -/
theorem keepsEqual_number (hself : ∀ m ∈ ms, equals m.turn m.turn = true) :
    KeepsEqual (Schedule.IsTurn ms) (numberOf ms) :=
  keepsEqual_of_tellsApart (tellsApart_number ms) fun t ht => by
    obtain ⟨m, hm, rfl⟩ := ht
    rw [equals_nat_self, hself m hm]

/-- A new number is at most the number of turns. -/
theorem number_le (ms : List Fixture) {m : Fixture} (hm : m ∈ ms) :
    numberOf ms m.turn ≤ (Schedule.turns ms).length := by
  refine idxOf_lt_of_any ?_
  rw [Schedule.turns, any_beq_eraseDups]
  exact List.any_eq_true.mpr ⟨m.turn, List.mem_map_of_mem hm, BEq.rfl⟩

/-- **New numbers ascend.** -/
theorem ascending_renumbered {count : Nat} (h : Schedule.InBlocks count ms) :
    ((Planner.renumbered ms).map (·.turn)).Pairwise (· ≤ ·) := by
  obtain ⟨rank, hrank, hasc, -⟩ := h
  have hrank := hrank.tellsApart
  have hmem : ∀ m ∈ ms, rank m.turn ∈ (ms.map fun m => rank m.turn).eraseDups := fun m hm =>
    List.mem_eraseDups.mpr (List.mem_map.mpr ⟨m, hm, rfl⟩)
  rw [renumbered_eq, List.map_map, List.pairwise_map]
  refine (List.pairwise_map.mp hasc).imp_of_mem fun {m n} hm hn hmn => ?_
  simp only [Function.comp_apply, Match.turn_map, numberOf]
  rw [idxOf_turn hrank ⟨m, hm, rfl⟩, idxOf_turn hrank ⟨n, hn, rfl⟩]
  exact Nat.succ_le_succ
    (idxOf_le_idxOf (ascending_eraseDups hasc) (hmem m hm) (hmem n hn) hmn)

/-- **A round in blocks is a single round once its turns are numbered.** -/
theorem renumbered_isSingleRound (h : IsRound ps ms) (hd : AllDifferent ps) (h2 : 2 ≤ ps.length)
    (hb : Schedule.InBlocks (turnCount ps.length) ms) :
    IsSingleRound ps 1 (Planner.renumbered ms) := by
  have hround := h.map (keepsEqual_number hb.equals_self) (g := id) fun _ _ _ _ => rfl
  rw [List.map_id, ← renumbered_eq] at hround
  refine hround.isSingleRound hd h2 (ascending_renumbered hb) fun m' hm' => ?_
  rw [renumbered_eq] at hm'
  obtain ⟨m, hm, rfl⟩ := List.mem_map.mp hm'
  have hpos : 1 ≤ numberOf ms m.turn := Nat.succ_pos _
  have hle := number_le ms hm
  have hcount := hb.length_turns_le
  rw [Match.turn_map]
  omega

/-- Roles do not depend on the numbers of turns. -/
theorem gamesAs_renumbered (r : Role) (p : Value) (ms : List Fixture) :
    Tally.gamesAs r p (Planner.renumbered ms) = Tally.gamesAs r p ms := by
  unfold Tally.gamesAs
  rw [renumbered_eq, List.countP_map]
  exact List.countP_congr fun m _ => by rw [Function.comp_apply, Match.player_map, id]

end Numbers

end Matchday
