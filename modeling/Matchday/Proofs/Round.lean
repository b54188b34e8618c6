/-
# Rounds

A schedule is a round of some participants when every two of them meet in exactly one match, there
are no other matches, and nobody plays twice in a turn (`IsRound`).  Which of two players is at home
does not matter here, and neither does the order of the matches.  It is a single round in playing
order when its turns are numbered without a gap and ascend (`IsSingleRound`): an even number `n` of
participants takes `n - 1` turns, an odd number `n` of them.

Three counts follow from that alone, whatever made the schedule.

* Everybody plays `n - 1` matches (`IsRound.countP_involves`), so there are `n * (n - 1) / 2` in all
  (`IsRound.two_mul_length`).
* With an even number everybody plays in every turn (`IsSingleRound.nobody_rests`).
* With an odd number everybody rests once, and one in each turn (`IsSingleRound.rests_once`,
  `IsSingleRound.one_rests`).  The number of players in a turn is even, so at least one rests in
  each, and there are no more than `n` rests to share out.

Without some of the participants, what is left of a round is a round of the others
(`IsRound.part`).
-/
import Matchday.Match
import Matchday.Proofs.Counting

namespace Matchday

variable {τ α : Type}

/-! ## 1. Who meets whom -/

namespace Match

variable [BEq α]

/-- The player takes part in the match. -/
def involves (p : α) (m : Match τ α) : Bool := m.home == p || m.guest == p

/-- The two players meet in the match, whoever of them is at home. -/
def isBetween (p q : α) (m : Match τ α) : Bool :=
  (m.home == p && m.guest == q) || (m.home == q && m.guest == p)

/-- One of the two players is equal to the given one. -/
def hasPlayer [Equality α] (p : α) (m : Match τ α) : Bool := equals m.home p || equals m.guest p

/-- Somebody who is equal to himself takes part in the matches that have him as a player. -/
theorem hasPlayer_eq_involves [Equality α] [PartialEquivBEq α] {p : α} (hp : equals p p = true)
    (m : Match τ α) : m.hasPlayer p = m.involves p := by
  rw [hasPlayer, equals_eq_beq hp, equals_eq_beq hp, involves]

/-- Whoever is equal to a player takes part in the match. -/
theorem involves_of_hasPlayer [Equality α] {p : α} {m : Match τ α} (h : m.hasPlayer p = true) :
    m.involves p = true := by
  rcases Bool.or_eq_true_iff.mp h with h | h
  · rw [involves, beq_of_equals h, Bool.true_or]
  · rw [involves, beq_of_equals h, Bool.or_true]

@[simp] theorem involves_swapped (p : α) (m : Match τ α) : m.swapped.involves p = m.involves p :=
  Bool.or_comm _ _

@[simp] theorem hasPlayer_swapped [Equality α] (p : α) (m : Match τ α) :
    m.swapped.hasPlayer p = m.hasPlayer p :=
  Bool.or_comm _ _

@[simp] theorem isBetween_swapped (p q : α) (m : Match τ α) :
    m.swapped.isBetween p q = m.isBetween p q := by
  rw [isBetween, isBetween, Bool.or_comm, Bool.and_comm, Bool.and_comm (m.swapped.home == p)]
  rfl

end Match

namespace Schedule

variable [BEq τ] [Equality τ] [BEq α]

/-- The player has no match in the turn. -/
def rests (ms : List (Match τ α)) (t : τ) (p : α) : Bool :=
  (ofTurn ms t).countP (Match.involves p) == 0

end Schedule

/-! ## 2. Rounds -/

/-- **A round**: matches between participants, in which every two of them meet once and nobody
plays twice in a turn. -/
structure IsRound [BEq τ] [Equality τ] [BEq α] (ps : List α) (ms : List (Match τ α)) : Prop where
  home_mem : ∀ m ∈ ms, m.home ∈ ps
  guest_mem : ∀ m ∈ ms, m.guest ∈ ps
  not_self : ∀ m ∈ ms, (m.home == m.guest) = false
  meet_once : ∀ p ∈ ps, ∀ q ∈ ps, (p == q) = false → ms.countP (Match.isBetween p q) = 1
  once_a_turn : ∀ t, ∀ p ∈ ps, (Schedule.ofTurn ms t).countP (Match.involves p) ≤ 1

/-- Both players of a match of a round are participants. -/
theorem IsRound.players_mem [BEq τ] [Equality τ] [BEq α] {ps : List α}
    {ms : List (Match τ α)} (h : IsRound ps ms) : ∀ m ∈ ms, m.home ∈ ps ∧ m.guest ∈ ps :=
  fun m hm => ⟨h.home_mem m hm, h.guest_mem m hm⟩

/-- Nobody in a round is equal to his opponent. -/
theorem IsRound.not_equals [BEq τ] [Equality τ] [BEq α] [Equality α] {ps : List α}
    {ms : List (Match τ α)} (h : IsRound ps ms) : ∀ m ∈ ms, equals m.home m.guest = false :=
  fun m hm => equals_of_not_beq (h.not_self m hm)

/-- How many turns a round of `n` participants takes. -/
def turnCount (n : Nat) : Nat := if n % 2 = 0 then n - 1 else n

/-- The turns of a schedule ascend and are exactly those numbered from `first` to before `last`. -/
structure InOrder (first last : Nat) (ms : List (Match Nat α)) : Prop where
  ascending : (ms.map (·.turn)).Pairwise (· ≤ ·)
  turn_iff : ∀ t, t ∈ ms.map (·.turn) ↔ first ≤ t ∧ t < last

/-- **A single round in playing order**, with its turns numbered from `first` on. -/
structure IsSingleRound [BEq α] (ps : List α) (first : Nat) (ms : List (Match Nat α)) : Prop where
  round : IsRound ps ms
  inOrder : InOrder first (first + turnCount ps.length) ms

/-- The turns of a single round keep to their range. -/
theorem IsSingleRound.turn_range [BEq α] {ps : List α} {first : Nat}
    {ms : List (Match Nat α)} (h : IsSingleRound ps first ms) :
    ∀ m ∈ ms, first ≤ m.turn ∧ m.turn < first + turnCount ps.length :=
  fun m hm => (h.inOrder.turn_iff m.turn).mp (List.mem_map_of_mem hm)

/-- **Part of a round.**  The matches between some of the participants are a round of these. -/
theorem IsRound.part [BEq τ] [Equality τ] [BEq α] {ps : List α} {ms : List (Match τ α)}
    (h : IsRound ps ms) {f : α → Bool} (hf : ∀ p q, (p == q) = true → f p = f q) :
    IsRound (ps.filter f) (ms.filter fun m => f m.home && f m.guest) where
  home_mem := by
    intro m hm
    obtain ⟨hm, hplay⟩ := List.mem_filter.mp hm
    exact List.mem_filter.mpr ⟨h.home_mem m hm, (Bool.and_eq_true _ _ |>.mp hplay).1⟩
  guest_mem := by
    intro m hm
    obtain ⟨hm, hplay⟩ := List.mem_filter.mp hm
    exact List.mem_filter.mpr ⟨h.guest_mem m hm, (Bool.and_eq_true _ _ |>.mp hplay).2⟩
  not_self := fun m hm => h.not_self m (List.mem_of_mem_filter hm)
  meet_once := by
    intro p hp q hq hpq
    obtain ⟨hp, hpf⟩ := List.mem_filter.mp hp
    obtain ⟨hq, hqf⟩ := List.mem_filter.mp hq
    rw [List.countP_filter, ← h.meet_once p hp q hq hpq]
    refine List.countP_congr fun m _ => ?_
    rw [Bool.and_eq_true, Match.isBetween]
    refine and_iff_left_of_imp fun hbetween => ?_
    rw [Bool.or_eq_true, Bool.and_eq_true, Bool.and_eq_true] at hbetween
    rcases hbetween with ⟨hhome, hguest⟩ | ⟨hhome, hguest⟩ <;>
      rw [hf _ _ hhome, hf _ _ hguest, hpf, hqf] <;> rfl
  once_a_turn := by
    intro t p hp
    refine Nat.le_trans ?_ (h.once_a_turn t p (List.mem_of_mem_filter hp))
    exact (List.filter_sublist.filter _).countP_le

/-! ## 3. How many matches there are -/

section Counts

variable [BEq τ] [Equality τ] [BEq α] [EquivBEq α] {ps : List α} {ms : List (Match τ α)}

/-- Every match has two players. -/
theorem IsRound.countP_players (h : IsRound ps ms) (hd : AllDifferent ps) {m : Match τ α}
    (hm : m ∈ ms) : (ps.countP fun p => m.involves p) = 2 := by
  have hdisj : ∀ p ∈ ps, (m.home == p) = true → (m.guest == p) = false := by
    intro p _ hp
    have hs := h.not_self m hm
    rw [BEq.congr_left hp, BEq.comm] at hs
    exact hs
  have hsplit : (ps.countP fun p => m.involves p)
      = ps.countP (m.home == ·) + ps.countP (m.guest == ·) := countP_or_of_disjoint hdisj
  rw [hsplit, countP_beq_eq_one hd (h.home_mem m hm), countP_beq_eq_one hd (h.guest_mem m hm)]

/-- A player of a match has one opponent in it, and anybody else has none. -/
theorem IsRound.countP_opponents (h : IsRound ps ms) (hd : AllDifferent ps) {m : Match τ α}
    (hm : m ∈ ms) (p : α) :
    (ps.countP fun q => m.isBetween p q) = if m.involves p then 1 else 0 := by
  have hs := h.not_self m hm
  by_cases hhome : (m.home == p) = true
  · have hguest : (m.guest == p) = false := by
      rw [BEq.congr_left hhome, BEq.comm] at hs
      exact hs
    have hq : ∀ q, m.isBetween p q = (m.guest == q) := fun q => by
      simp [Match.isBetween, hhome, hguest]
    have hp : m.involves p = true := by simp [Match.involves, hhome]
    simp only [hq, hp, if_true]
    exact countP_beq_eq_one hd (h.guest_mem m hm)
  · have hhome : (m.home == p) = false := by simpa using hhome
    by_cases hguest : (m.guest == p) = true
    · have hq : ∀ q, m.isBetween p q = (m.home == q) := fun q => by
        simp [Match.isBetween, hhome, hguest]
      have hp : m.involves p = true := by simp [Match.involves, hguest]
      simp only [hq, hp, if_true]
      exact countP_beq_eq_one hd (h.home_mem m hm)
    · have hguest : (m.guest == p) = false := by simpa using hguest
      have hq : ∀ q, m.isBetween p q = false := fun q => by
        simp [Match.isBetween, hhome, hguest]
      have hp : m.involves p = false := by simp [Match.involves, hhome, hguest]
      simp [hq, hp]

/-- **Everybody plays one match less than there are participants.** -/
theorem IsRound.countP_involves (h : IsRound ps ms) (hd : AllDifferent ps) {p : α} (hp : p ∈ ps) :
    ms.countP (Match.involves p) + 1 = ps.length := by
  have hsame : ∀ q ∈ ps, ms.countP (Match.isBetween p q) = if !(p == q) then 1 else 0 := by
    intro q hq
    cases hpq : p == q with
    | false => exact h.meet_once p hp q hq hpq
    | true =>
      refine List.countP_eq_zero.mpr fun m hm hb => ?_
      have hs := h.not_self m hm
      rcases Bool.or_eq_true _ _ |>.mp hb with hb | hb
      · obtain ⟨h₁, h₂⟩ := Bool.and_eq_true _ _ |>.mp hb
        rw [BEq.congr_left h₁, BEq.congr_right h₂, hpq] at hs
        exact absurd hs (by simp)
      · obtain ⟨h₁, h₂⟩ := Bool.and_eq_true _ _ |>.mp hb
        rw [BEq.congr_left h₁, BEq.congr_right h₂, BEq.comm, hpq] at hs
        exact absurd hs (by simp)
  have hcount : ms.countP (Match.involves p) = ps.countP fun q => !(p == q) := by
    calc ms.countP (Match.involves p)
        = (ms.map fun m => if m.involves p then 1 else 0).sum :=
          (sum_map_ite_eq_countP _ ms).symm
      _ = (ms.map fun m => ps.countP fun q => m.isBetween p q).sum :=
          sum_map_congr fun m hm => (h.countP_opponents hd hm p).symm
      _ = (ps.map fun q => ms.countP (Match.isBetween p q)).sum :=
          sum_countP_comm (fun m q => m.isBetween p q) ms ps
      _ = (ps.map fun q => if !(p == q) then 1 else 0).sum := sum_map_congr hsame
      _ = ps.countP fun q => !(p == q) := sum_map_ite_eq_countP _ ps
  have hone := countP_beq_eq_one hd hp
  have hall := List.length_eq_countP_add_countP (p == ·) (l := ps)
  have hnot : (ps.countP fun q => !(p == q)) = ps.countP fun q => decide ¬(p == q) = true :=
    List.countP_congr fun q _ => by simp
  omega

/-- **The number of matches**: every two participants have one. -/
theorem IsRound.two_mul_length (h : IsRound ps ms) (hd : AllDifferent ps) :
    2 * ms.length = ps.length * (ps.length - 1) := by
  calc 2 * ms.length = ms.length * 2 := Nat.mul_comm _ _
    _ = (ms.map fun m => ps.countP fun p => m.involves p).sum :=
        (sum_map_eq_mul fun m hm => h.countP_players hd hm).symm
    _ = (ps.map fun p => ms.countP (Match.involves p)).sum :=
        sum_countP_comm (fun m p => m.involves p) ms ps
    _ = ps.length * (ps.length - 1) :=
        sum_map_eq_mul fun p hp => by
          have := h.countP_involves hd hp
          omega

end Counts

/-! ## 4. Who rests -/

/-- The matches of some kind, summed up over the turns. -/
theorem Schedule.sum_countP_ofTurn {ms : List (Match Nat α)} {first count : Nat}
    (hin : ∀ m ∈ ms, first ≤ m.turn ∧ m.turn < first + count) (f : Match Nat α → Bool) :
    ((List.range' first count).map fun t => (Schedule.ofTurn ms t).countP f).sum = ms.countP f := by
  have hone : ∀ m ∈ ms, ((List.range' first count).countP fun t => f m && m.turn == t)
      = if f m then 1 else 0 := by
    intro m hm
    cases hf : f m with
    | false => simp
    | true =>
      have hmem : m.turn ∈ List.range' first count := by
        have := hin m hm
        rw [List.mem_range'_1]
        omega
      refine countP_eq_one_of_unique List.nodup_range' hmem fun t _ => ?_
      rw [Bool.true_and, beq_iff_eq]
      exact eq_comm
  calc ((List.range' first count).map fun t => (Schedule.ofTurn ms t).countP f).sum
      = ((List.range' first count).map fun t => ms.countP fun m => f m && m.turn == t).sum :=
        sum_map_congr fun t _ => by
          rw [Schedule.ofTurn_eq_filter (equals_nat_self t), List.countP_filter]
    _ = (ms.map fun m => (List.range' first count).countP fun t => f m && m.turn == t).sum :=
        sum_countP_comm (fun t m => f m && m.turn == t) (List.range' first count) ms
    _ = (ms.map fun m => if f m then 1 else 0).sum := sum_map_congr hone
    _ = ms.countP f := sum_map_ite_eq_countP f ms

section Rests

variable [BEq α] [EquivBEq α] {ps : List α} {ms : List (Match Nat α)} {first count : Nat}

/-- Every turn has its players and those who rest. -/
theorem IsRound.countP_rests_add (h : IsRound ps ms) (hd : AllDifferent ps) (t : Nat) :
    ps.countP (Schedule.rests ms t) + 2 * (Schedule.ofTurn ms t).length = ps.length := by
  have hplay : (ps.map fun p => (Schedule.ofTurn ms t).countP (Match.involves p)).sum
      = (Schedule.ofTurn ms t).length * 2 := by
    rw [sum_countP_comm (fun p m => m.involves p) ps (Schedule.ofTurn ms t)]
    exact sum_map_eq_mul fun m hm => h.countP_players hd (List.mem_of_mem_filter hm)
  have hall := countP_zero_add_sum (h.once_a_turn t)
  rw [hplay] at hall
  rw [Nat.mul_comm 2]
  exact hall

/-- Every player has turns to play in and turns to rest in. -/
theorem IsRound.countP_rests_of_player (h : IsRound ps ms) (hd : AllDifferent ps)
    (hin : ∀ m ∈ ms, first ≤ m.turn ∧ m.turn < first + count) {p : α} (hp : p ∈ ps) :
    ((List.range' first count).countP fun t => Schedule.rests ms t p) + ps.length = count + 1 := by
  have hall : ((List.range' first count).countP fun t => Schedule.rests ms t p)
      + ((List.range' first count).map fun t =>
          (Schedule.ofTurn ms t).countP (Match.involves p)).sum
      = (List.range' first count).length := countP_zero_add_sum fun t _ => h.once_a_turn t p hp
  rw [Schedule.sum_countP_ofTurn hin, List.length_range'] at hall
  have := h.countP_involves hd hp
  omega

/-- With an odd number, one participant rests in each turn. -/
theorem IsRound.countP_rests_of_odd (h : IsRound ps ms) (hd : AllDifferent ps)
    (hin : ∀ m ∈ ms, first ≤ m.turn ∧ m.turn < first + turnCount ps.length)
    (hodd : ps.length % 2 = 1) {t : Nat} (ht : t ∈ List.range' first (turnCount ps.length)) :
    ps.countP (Schedule.rests ms t) = 1 := by
  have hT : turnCount ps.length = ps.length := by
    rw [turnCount, if_neg (by omega)]
  -- one of an odd number always rests, and all rests together are as many as the turns
  have hge : ∀ t ∈ List.range' first (turnCount ps.length),
      1 ≤ ps.countP (Schedule.rests ms t) := by
    intro t _
    have := h.countP_rests_add hd t
    omega
  have hsum : ((List.range' first (turnCount ps.length)).map fun t =>
      ps.countP (Schedule.rests ms t)).sum = (List.range' first (turnCount ps.length)).length := by
    rw [sum_countP_comm (fun t p => Schedule.rests ms t p) (List.range' first _) ps,
      List.length_range', sum_map_eq_mul (k := 1), Nat.mul_one, hT]
    intro p hp
    have := h.countP_rests_of_player hd hin hp
    omega
  exact eq_one_of_sum_eq_length hge hsum t ht

/-- A round whose turns keep to their range uses all of them. -/
theorem IsRound.exists_of_turn (h : IsRound ps ms) (hd : AllDifferent ps) (h2 : 2 ≤ ps.length)
    (hin : ∀ m ∈ ms, first ≤ m.turn ∧ m.turn < first + turnCount ps.length) {t : Nat}
    (ht : t ∈ List.range' first (turnCount ps.length)) : ∃ m ∈ ms, m.turn = t := by
  have hall := h.countP_rests_add hd t
  have hne : ps.countP (Schedule.rests ms t) < ps.length := by
    rcases Nat.mod_two_eq_zero_or_one ps.length with heven | hodd
    · -- whoever comes first rests in no turn
      obtain ⟨p, hp⟩ : ∃ p, p ∈ ps := List.exists_mem_of_length_pos (by omega)
      have hrest := h.countP_rests_of_player hd hin hp
      have hT : turnCount ps.length = ps.length - 1 := by rw [turnCount, if_pos heven]
      have hzero : ((List.range' first (turnCount ps.length)).countP
          fun t => Schedule.rests ms t p) = 0 := by omega
      have hpt : ¬ Schedule.rests ms t p = true := List.countP_eq_zero.mp hzero t ht
      refine Nat.lt_of_le_of_ne List.countP_le_length fun heq => ?_
      exact hpt (List.countP_eq_length.mp heq p hp)
    · rw [h.countP_rests_of_odd hd hin hodd ht]
      omega
  obtain ⟨m, hm⟩ : ∃ m, m ∈ Schedule.ofTurn ms t := List.exists_mem_of_length_pos (by omega)
  obtain ⟨hm, hturn⟩ := List.mem_filter.mp hm
  exact ⟨m, hm, by simpa using hturn⟩

/-- **A round with ascending turns in the right range is a single round.** -/
theorem IsRound.isSingleRound (h : IsRound ps ms) (hd : AllDifferent ps) (h2 : 2 ≤ ps.length)
    (hasc : (ms.map (·.turn)).Pairwise (· ≤ ·))
    (hin : ∀ m ∈ ms, first ≤ m.turn ∧ m.turn < first + turnCount ps.length) :
    IsSingleRound ps first ms := by
  refine ⟨h, hasc, fun t => ⟨fun ht => ?_, fun ht => ?_⟩⟩
  · obtain ⟨m, hm, rfl⟩ := List.mem_map.mp ht
    exact hin m hm
  · have hmem : t ∈ List.range' first (turnCount ps.length) := List.mem_range'_1.mpr ht
    obtain ⟨m, hm, rfl⟩ := h.exists_of_turn hd h2 hin hmem
    exact List.mem_map_of_mem hm

/-- **With an even number everybody plays in every turn.** -/
theorem IsSingleRound.nobody_rests (h : IsSingleRound ps first ms) (hd : AllDifferent ps)
    (heven : ps.length % 2 = 0) {t : Nat} (ht : t ∈ List.range' first (turnCount ps.length)) {p : α}
    (hp : p ∈ ps) : Schedule.rests ms t p = false := by
  have hrest := h.round.countP_rests_of_player hd h.turn_range hp
  have hpos := List.length_pos_of_mem hp
  have hT : turnCount ps.length = ps.length - 1 := by rw [turnCount, if_pos heven]
  have hzero : ((List.range' first (turnCount ps.length)).countP
      fun t => Schedule.rests ms t p) = 0 := by omega
  simpa using List.countP_eq_zero.mp hzero t ht

/-- **With an odd number exactly one rests in each turn.** -/
theorem IsSingleRound.one_rests (h : IsSingleRound ps first ms) (hd : AllDifferent ps)
    (hodd : ps.length % 2 = 1) {t : Nat} (ht : t ∈ List.range' first (turnCount ps.length)) :
    ps.countP (Schedule.rests ms t) = 1 :=
  h.round.countP_rests_of_odd hd h.turn_range hodd ht

/-- **With an odd number everybody rests in exactly one turn.** -/
theorem IsSingleRound.rests_once (h : IsSingleRound ps first ms) (hd : AllDifferent ps)
    (hodd : ps.length % 2 = 1) {p : α} (hp : p ∈ ps) :
    ((List.range' first (turnCount ps.length)).countP fun t => Schedule.rests ms t p) = 1 := by
  have hrest := h.round.countP_rests_of_player hd h.turn_range hp
  have hT : turnCount ps.length = ps.length := by rw [turnCount, if_neg (by omega)]
  omega

end Rests

end Matchday
