/-
# Breaks in a single round

Nobody plays twice in a turn of a single round, so the roles of a player are given turn by turn
(`IsSingleRound.roles_eq`), and a role in a turn is a match of that turn
(`IsRound.roleIn_eq_some_iff`).

With an even number of participants everybody plays in every turn.  Then few of them can do without
a break.  The roles of somebody who has none alternate, so the first one says them all.  Two such
players who start in the same role would be in the same role in every turn, but in one turn they
meet.  So there is at most one without a break for each role to start in, and a single round of `n`
participants has at least `n - 2` breaks (`IsSingleRound.length_le_breaks`).
-/
import Matchday.Proofs.Streaks

namespace Matchday

variable {τ α : Type}

/-! ## 1. Turn by turn -/

/-- The matches of the first turn stand in front. -/
theorem Schedule.ofTurn_append_later {ms : List (Match Nat α)} {first : Nat}
    (hasc : (ms.map (·.turn)).Pairwise (· ≤ ·)) (hfirst : ∀ m ∈ ms, first ≤ m.turn) :
    Schedule.ofTurn ms first ++ ms.filter (first < ·.turn) = ms := by
  induction ms with
  | nil => rfl
  | cons m ms ih =>
    rw [List.map_cons, List.pairwise_cons] at hasc
    have ih := ih hasc.2 fun n hn => hfirst n (List.mem_cons_of_mem m hn)
    rw [Schedule.ofTurn_eq_filter (equals_nat_self first)] at ih
    rw [Schedule.ofTurn_eq_filter (equals_nat_self first), List.filter_cons, List.filter_cons]
    rcases Nat.eq_or_lt_of_le (hfirst m List.mem_cons_self) with heq | hlt
    · rw [if_pos (beq_iff_eq.mpr heq.symm), if_neg (by simp [heq]), List.cons_append, ih]
    · have hnone : ms.filter (·.turn == first) = [] := by
        refine List.filter_eq_nil_iff.mpr fun n hn => ?_
        have hmn := hasc.1 n.turn (List.mem_map_of_mem hn)
        rw [beq_iff_eq]
        omega
      rw [hnone] at ih
      rw [if_neg (by rw [beq_iff_eq]; omega), if_pos (decide_eq_true hlt), hnone, List.nil_append,
        ← List.nil_append (List.filter _ ms), ih]

/-- **A schedule whose turns ascend is played turn by turn.** -/
theorem Schedule.turnByTurn_eq {ms : List (Match Nat α)} {first count : Nat}
    (hasc : (ms.map (·.turn)).Pairwise (· ≤ ·))
    (hin : ∀ m ∈ ms, first ≤ m.turn ∧ m.turn < first + count) :
    (List.range' first count).flatMap (Schedule.ofTurn ms) = ms := by
  induction count generalizing first ms with
  | zero =>
    refine (List.eq_nil_iff_forall_not_mem.mpr fun m hm => ?_).symm
    have := hin m hm
    omega
  | succ count ih =>
    have hlater : ∀ t ∈ List.range' (first + 1) count,
        Schedule.ofTurn ms t = Schedule.ofTurn (ms.filter (first < ·.turn)) t := by
      intro t ht
      have ht := (List.mem_range'_1.mp ht).1
      rw [Schedule.ofTurn, Schedule.ofTurn, List.filter_filter]
      refine List.filter_congr fun m _ => ?_
      rw [equals_nat, Bool.eq_iff_iff, Bool.and_eq_true, beq_iff_eq, decide_eq_true_eq]
      omega
    have hsub : ((ms.filter (first < ·.turn)).map (·.turn)).Pairwise (· ≤ ·) :=
      hasc.sublist (List.filter_sublist.map _)
    rw [List.range'_succ, List.flatMap_cons, List.flatMap_congr hlater, ih hsub]
    · exact Schedule.ofTurn_append_later hasc fun m hm => (hin m hm).1
    · intro m hm
      obtain ⟨hm, hlt⟩ := List.mem_filter.mp hm
      have hrange := hin m hm
      have hlt := of_decide_eq_true hlt
      omega

/-! ## 2. Roles turn by turn -/

section Roles

variable [BEq α] [Equality α]

/-- The role of a player in a turn, if there is one. -/
def Schedule.roleIn [BEq τ] [Equality τ] (p : α) (ms : List (Match τ α)) (t : τ) : Option Role :=
  (Schedule.roles p (Schedule.ofTurn ms t)).head?

/-- Players have a role. -/
theorem Match.isSome_role (p : α) (m : Match τ α) : (m.role p).isSome = m.hasPlayer p := by
  rw [Match.role, Match.hasPlayer]
  cases equals m.home p <;> cases equals m.guest p <;> rfl

theorem Schedule.length_roles (p : α) (ms : List (Match τ α)) :
    (Schedule.roles p ms).length = ms.countP (Match.hasPlayer p) := by
  rw [Schedule.roles, List.length_filterMap_eq_countP]
  exact List.countP_congr fun m _ => by rw [Match.isSome_role]

/-- There are no more roles than matches that somebody takes part in. -/
theorem Schedule.length_roles_le (p : α) (ms : List (Match τ α)) :
    (Schedule.roles p ms).length ≤ ms.countP (Match.involves p) := by
  rw [length_roles]
  exact List.countP_mono_left fun m _ => Match.involves_of_hasPlayer

/-- Whoever is equal to himself has a role wherever he takes part. -/
theorem Schedule.length_roles_eq [PartialEquivBEq α] {p : α} (hp : equals p p = true)
    (ms : List (Match τ α)) :
    (Schedule.roles p ms).length = ms.countP (Match.involves p) := by
  rw [length_roles, funext (Match.hasPlayer_eq_involves hp)]

variable {ps : List α} {p : α} {r : Role}

section Turns

variable [BEq τ] [Equality τ] {ms : List (Match τ α)}

/-- There is no more than one role in a turn. -/
theorem IsRound.roles_ofTurn (h : IsRound ps ms) (hp : p ∈ ps) (t : τ) :
    Schedule.roles p (Schedule.ofTurn ms t) = (Schedule.roleIn p ms t).toList := by
  have hone := Nat.le_trans (Schedule.length_roles_le p _) (h.once_a_turn t p hp)
  rw [Schedule.roleIn]
  match Schedule.roles p (Schedule.ofTurn ms t), hone with
  | [], _ => rfl
  | [_], _ => rfl

variable [PartialEquivBEq α]

/-- Whoever rests has no role. -/
theorem IsRound.roleIn_eq_none_iff (h : IsRound ps ms) (hp : p ∈ ps) (hself : equals p p = true)
    (t : τ) : Schedule.roleIn p ms t = none ↔ Schedule.rests ms t p = true := by
  rw [Schedule.rests, ← Schedule.length_roles_eq hself, h.roles_ofTurn hp]
  cases Schedule.roleIn p ms t <;> simp

/-- **A role in a turn is a match of the turn.** -/
theorem IsRound.roleIn_eq_some_iff (h : IsRound ps ms) (hp : p ∈ ps) (t : τ) :
    Schedule.roleIn p ms t = some r
      ↔ ∃ m ∈ ms, equals m.turn t = true ∧ equals (m.player r) p = true := by
  rw [← Option.mem_toList, ← h.roles_ofTurn hp, Schedule.roles, List.mem_filterMap]
  constructor
  · rintro ⟨m, hm, hrole⟩
    obtain ⟨hm, ht⟩ := List.mem_filter.mp hm
    exact ⟨m, hm, ht, (Match.role_eq_some_iff (h.not_equals m hm)).mp hrole⟩
  · rintro ⟨m, hm, ht, hplayer⟩
    exact ⟨m, List.mem_filter.mpr ⟨hm, ht⟩,
      (Match.role_eq_some_iff (h.not_equals m hm)).mpr hplayer⟩

end Turns

/-- In a round of places it is enough to look at which turn and which place are the same. -/
theorem IsRound.roleIn_place_iff {places : List Nat} {ms : List (Match Nat Nat)}
    (h : IsRound places ms) {i : Nat} (hi : i ∈ places) (t : Nat) :
    Schedule.roleIn i ms t = some r
      ↔ ∃ m ∈ ms, (m.turn == t) = true ∧ (m.player r == i) = true := by
  simp only [h.roleIn_eq_some_iff hi, equals_nat]

/-- **The roles of a player are his roles in the turns.** -/
theorem IsSingleRound.roles_eq {first : Nat} {ms : List (Match Nat α)}
    (h : IsSingleRound ps first ms) (hp : p ∈ ps) :
    Schedule.roles p ms
      = (List.range' first (turnCount ps.length)).filterMap (Schedule.roleIn p ms) := by
  have hturns := Schedule.turnByTurn_eq h.inOrder.ascending h.turn_range
  calc Schedule.roles p ms
      = Schedule.roles p
          ((List.range' first (turnCount ps.length)).flatMap (Schedule.ofTurn ms)) := by rw [hturns]
    _ = (List.range' first (turnCount ps.length)).flatMap
          fun t => Schedule.roles p (Schedule.ofTurn ms t) := List.filterMap_flatMap
    _ = (List.range' first (turnCount ps.length)).flatMap
          fun t => (Schedule.roleIn p ms t).toList :=
        List.flatMap_congr fun t _ => h.round.roles_ofTurn hp t
    _ = (List.range' first (turnCount ps.length)).filterMap (Schedule.roleIn p ms) :=
        (List.filterMap_eq_flatMap_toList ..).symm

end Roles

/-! ## 3. Who has no break -/

/-- Without a break, the first role says them all. -/
theorem Streak.eq_of_breaks_eq_zero {qs rs : List Role} (hq : Streak.breaks qs = 0)
    (hr : Streak.breaks rs = 0) (hlen : qs.length = rs.length) (hhead : qs.head? = rs.head?) :
    qs = rs := by
  induction qs generalizing rs with
  | nil => exact (List.eq_nil_of_length_eq_zero hlen.symm).symm
  | cons q qs ih =>
    obtain ⟨r, rs, rfl⟩ := List.exists_cons_of_length_eq_add_one hlen.symm
    obtain rfl := Option.some.inj hhead
    have hlen := Nat.succ.inj hlen
    cases qs with
    | nil => rw [List.eq_nil_of_length_eq_zero hlen.symm]
    | cons q' qs =>
      obtain ⟨r', rs, rfl⟩ := List.exists_cons_of_length_eq_add_one hlen.symm
      -- neither goes on in the role it started in
      have hopp : ∀ {s : Role} {ss : List Role}, Streak.breaks (q :: s :: ss) = 0 →
          s = q.opposite ∧ Streak.breaks (s :: ss) = 0 := by
        intro s ss hs
        rw [Streak.breaks] at hs
        split at hs
        · omega
        · exact ⟨Role.eq_opposite_of_ne (Ne.symm ‹_›), by omega⟩
      obtain ⟨hq', hq⟩ := hopp hq
      obtain ⟨hr', hr⟩ := hopp hr
      rw [ih hq hr hlen (by rw [List.head?_cons, List.head?_cons, hq', hr'])]

section Even

variable [BEq α] [Equality α] [EquivBEq α] {ps : List α} {first : Nat} {ms : List (Match Nat α)}

/-- With an even number everybody has a role in every turn. -/
theorem IsSingleRound.map_roleIn (h : IsSingleRound ps first ms) (hd : AllDifferent ps)
    (hrefl : ∀ p ∈ ps, equals p p = true) (heven : ps.length % 2 = 0) {p : α} (hp : p ∈ ps) :
    (Schedule.roles p ms).map some
      = (List.range' first (turnCount ps.length)).map (Schedule.roleIn p ms) := by
  rw [h.roles_eq hp]
  have hplays : ∀ t ∈ List.range' first (turnCount ps.length),
      (Schedule.roleIn p ms t).isSome = true := by
    intro t ht
    rw [Option.isSome_iff_ne_none, Ne, h.round.roleIn_eq_none_iff hp (hrefl p hp),
      h.nobody_rests hd heven ht hp]
    exact Bool.false_ne_true
  generalize List.range' first (turnCount ps.length) = ts at hplays
  induction ts with
  | nil => rfl
  | cons t ts ih =>
    obtain ⟨r, hr⟩ := Option.isSome_iff_exists.mp (hplays t List.mem_cons_self)
    rw [List.filterMap_cons_some hr, List.map_cons, List.map_cons, hr,
      ih fun u hu => hplays u (List.mem_cons_of_mem t hu)]

/-- **Different players have different roles**, since there is a turn in which they meet. -/
theorem IsSingleRound.roles_ne (h : IsSingleRound ps first ms) (hd : AllDifferent ps)
    (hrefl : ∀ p ∈ ps, equals p p = true) (heven : ps.length % 2 = 0) {p q : α} (hp : p ∈ ps)
    (hq : q ∈ ps) (hpq : (p == q) = false) : Schedule.roles p ms ≠ Schedule.roles q ms := by
  intro hroles
  have hsame : ∀ t ∈ List.range' first (turnCount ps.length),
      Schedule.roleIn p ms t = Schedule.roleIn q ms t := by
    refine List.map_inj_left.mp ?_
    rw [← h.map_roleIn hd hrefl heven hp, ← h.map_roleIn hd hrefl heven hq, hroles]
  obtain ⟨m, hm, hbetween⟩ : ∃ m ∈ ms, m.isBetween p q = true := by
    have hone := h.round.meet_once p hp q hq hpq
    exact List.countP_pos_iff.mp (by omega)
  have hturn := hsame m.turn (List.mem_range'_1.mpr (h.turn_range m hm))
  have hrole : ∀ {x : α}, x ∈ ps → ∀ r, (m.player r == x) = true →
      Schedule.roleIn x ms m.turn = some r := fun hx r hr =>
    (h.round.roleIn_eq_some_iff hx m.turn).mpr
      ⟨m, hm, equals_nat_self m.turn, (equals_eq_beq (hrefl _ hx) _).trans hr⟩
  rw [Match.isBetween, Bool.or_eq_true, Bool.and_eq_true, Bool.and_eq_true] at hbetween
  rcases hbetween with ⟨hhome, hguest⟩ | ⟨hhome, hguest⟩
  · rw [hrole hp .home hhome, hrole hq .guest hguest] at hturn
    cases hturn
  · rw [hrole hp .guest hguest, hrole hq .home hhome] at hturn
    cases hturn

/-- No two players without a break start in the same role. -/
theorem IsSingleRound.countP_starting_le (h : IsSingleRound ps first ms) (hd : AllDifferent ps)
    (hrefl : ∀ p ∈ ps, equals p p = true) (heven : ps.length % 2 = 0) (r : Role) :
    (ps.countP fun p => decide (Streak.breaks (Schedule.roles p ms) = 0 ∧
      (Schedule.roles p ms).head? = some r)) ≤ 1 := by
  refine countP_le_one hd.nodup fun p hp q hq hpr hqr => ?_
  obtain ⟨hpbreaks, hphead⟩ := of_decide_eq_true hpr
  obtain ⟨hqbreaks, hqhead⟩ := of_decide_eq_true hqr
  have hlen : (Schedule.roles p ms).length = (Schedule.roles q ms).length := by
    have hplays := h.round.countP_involves hd hp
    have hqplays := h.round.countP_involves hd hq
    rw [Schedule.length_roles_eq (hrefl p hp), Schedule.length_roles_eq (hrefl q hq)]
    omega
  refine hd.eq_of_beq hp hq
    (Bool.of_not_eq_false fun hpq => h.roles_ne hd hrefl heven hp hq hpq ?_)
  exact Streak.eq_of_breaks_eq_zero hpbreaks hqbreaks hlen (hphead.trans hqhead.symm)

/-- **At most two players have no break.** -/
theorem IsSingleRound.countP_breaks_le (h : IsSingleRound ps first ms) (hd : AllDifferent ps)
    (hrefl : ∀ p ∈ ps, equals p p = true) (heven : ps.length % 2 = 0) :
    (ps.countP fun p => Streak.breaks (Schedule.roles p ms) == 0) ≤ 2 := by
  have hhome := h.countP_starting_le hd hrefl heven .home
  have hguest := h.countP_starting_le hd hrefl heven .guest
  refine Nat.le_trans ?_ (Nat.add_le_add hhome hguest)
  rw [← countP_or_of_disjoint]
  · refine List.countP_mono_left fun p hp hzero => ?_
    have hzero := eq_of_beq hzero
    -- there is an opponent to play
    have hplays := h.round.countP_involves hd hp
    rw [← Schedule.length_roles_eq (hrefl p hp)] at hplays
    match hroles : Schedule.roles p ms with
    | [] =>
      rw [hroles, List.length_nil] at hplays
      omega
    | .home :: _ | .guest :: _ =>
      rw [hroles] at hzero
      simp [hzero]
  · intro p _ hstart
    refine decide_eq_false fun hstart' => ?_
    have hheads := (of_decide_eq_true hstart).2.symm.trans hstart'.2
    cases hheads

/-- **There are at least as many breaks as participants, less two**, if the participants are an even
number. -/
theorem IsSingleRound.length_le_breaks (h : IsSingleRound ps first ms) (hd : AllDifferent ps)
    (hrefl : ∀ p ∈ ps, equals p p = true) (heven : ps.length % 2 = 0) :
    ps.length ≤ (ps.map fun p => Streak.breaks (Schedule.roles p ms)).sum + 2 := by
  have hnone := h.countP_breaks_le hd hrefl heven
  have hsome := length_le_countP_zero_add_sum (fun p => Streak.breaks (Schedule.roles p ms)) ps
  omega

end Even

end Matchday
