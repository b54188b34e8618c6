/-
# What the questions answer

Each question may be asked by itself, of any schedule and whatever turns are excluded.  Where turns
and players are keys it is not refused (`ask_eq`).  In a schedule in which nobody plays twice in a
turn, the answers to the first and the third question are told by who plays with whom.

The first one asks whether each match of a turn has exactly one of those who were at home in the
last turn.  It is meant to find a turn in which they all play, and not against each other
(`PlaysApart`).  That is the same where all turns have as many matches.  For then the turn has as
many matches as there are players on the team.  Nobody has two of them, so the pairs of a player of
the team and his match, counted from either side, leave no player without a match just when they
leave no match without a player (`all_splits_iff`).  So the question finds what it is meant to find
(`ask_apart_iff`).

The third one is meant to find the turn that continues the fewest streaks, those of the players who
have the same role as in the last turn (`continuing`).  But it reads the streaks off the turn alone.
What is reported first belongs to the last match of the turn, and is one for its players and nothing
for others (`current_add_current`).  So the question finds the turn whose last match has the fewest
players of the last turn, whatever their roles are (`ask_carried_iff`).  This may be a turn that
continues streaks when another one continues none (`continued_streaks_are_missed`).
-/
import Matchday.Proofs.Sequencer.Forms
import Matchday.Proofs.Sequencer.Picking

namespace Matchday.NextTurn

/-! ## 1. Asking -/

section Asking

variable {ms : List Fixture} {t : Value}

/-- **A question is not refused** where turns, and for the first question also players, are keys. -/
theorem ask_eq (q : Question) (hturn : ∀ m ∈ ms, m.turn.isKey = true) (last : Value)
    (excluded : List Value) :
    (q = .apart → ∀ m ∈ ms, m.home.isKey = true) →
    ask q last (.value (.list excluded)) (ms.map Row.ofFixture) =
      match q with
      | .apart => apart? ms last (openTurns ms excluded) none
      | .visiting => .ok (mostVisiting? ms last (openTurns ms excluded))
      | .carried => .ok (leastCarried? ms last (openTurns ms excluded)) := by
  intro hhome
  have hchosen : (ms.map Row.ofFixture).filterM
      (fun r => do return equals (← r.part 0) last : Row → Except Fault Bool)
        = .ok ((Schedule.ofTurn ms last).map Row.ofFixture) :=
    filterM_map_eq_ok fun _ _ => rfl
  unfold ask
  rw [hchosen, ok_bind, forIn_eq_ok, ok_bind, mapM_rows, mapM_timed hturn, ok_bind,
    Source.missing_list]
  · cases q <;> rfl
  · intro r hr
    obtain ⟨m, hm, rfl⟩ := List.mem_map.mp hr
    rw [Row.fixture_ofFixture, ok_bind]
    split
    · rename_i hq
      rw [Value.asKey_of_isKey (hhome hq m (List.mem_of_mem_filter hm))]
      rfl
    · rfl

/-- The same turn has the same matches. -/
theorem ofTurn_congr {u : Value} (h : (t == u) = true) (ms : List Fixture) :
    Schedule.ofTurn ms t = Schedule.ofTurn ms u :=
  List.filter_congr fun m _ => equals_congr_right h m.turn

/-- An open turn is the turn of a match. -/
theorem exists_of_mem_openTurns {placed : List Value} (ht : t ∈ openTurns ms placed) :
    ∃ m ∈ ms, m.turn = t :=
  List.mem_map.mp ((eraseDups_sublist _).subset (mem_openTurns.mp ht).1)

end Asking

/-! ## 2. A turn in which nobody plays twice -/

section Once

variable {τ α : Type} [BEq τ] [Equality τ] [BEq α] {ms : List (Match τ α)} {t : τ}

/-- Where nobody plays twice, nobody plays against himself. -/
theorem not_self_of_present (h : AllDifferent (present ms t)) :
    ∀ m ∈ Schedule.ofTurn ms t, (m.home == m.guest) = false := by
  intro m hm
  exact (List.pairwise_append.mp h).2.2 _ (List.mem_map_of_mem hm) _ (List.mem_map_of_mem hm)

/-- Where nobody plays twice, nobody has two matches. -/
theorem countP_involves_le_one [EquivBEq α] (h : AllDifferent (present ms t)) (p : α) :
    (Schedule.ofTurn ms t).countP (Match.involves p) ≤ 1 := by
  have hsplit : (Schedule.ofTurn ms t).countP (Match.involves p)
      = (Schedule.ofTurn ms t).countP (·.home == p)
        + (Schedule.ofTurn ms t).countP (·.guest == p) := by
    refine countP_or_of_disjoint fun m hm hhome => ?_
    rw [← BEq.congr_right hhome, BEq.comm]
    exact not_self_of_present h m hm
  have hpresent : (present ms t).countP (p == ·) = (Schedule.ofTurn ms t).countP (·.home == p)
      + (Schedule.ofTurn ms t).countP (·.guest == p) := by
    rw [present, List.countP_append, List.countP_map, List.countP_map]
    simp only [Function.comp_def, BEq.comm (a := p)]
  rw [hsplit, ← hpresent]
  exact countP_beq_le_one h p

/-- Nor has anybody two matches as one of their players. -/
theorem countP_hasPlayer_le_one [Equality α] [EquivBEq α] (h : AllDifferent (present ms t)) (p : α) :
    (Schedule.ofTurn ms t).countP (Match.hasPlayer p) ≤ 1 :=
  Nat.le_trans (List.countP_mono_left fun _ _ => Match.involves_of_hasPlayer)
    (countP_involves_le_one h p)

end Once

/-! ## 3. All of a team, and not against each other -/

section Team

variable {τ α : Type} [BEq α]

/-- **All of a team play, and no two of them meet.** -/
structure PlaysApart (team : List α) (ns : List (Match τ α)) : Prop where
  plays : ∀ p ∈ team, ∃ n ∈ ns, n.involves p = true
  apart : ∀ p ∈ team, ∀ q ∈ team, (p == q) = false → ∀ n ∈ ns, n.isBetween p q = false

variable [EquivBEq α] {team : List α} {m : Match τ α} {ns : List (Match τ α)}

/-- How many of a team play in a match. -/
theorem countP_team (h : AllDifferent team) (hself : (m.home == m.guest) = false) :
    team.countP (m.involves ·)
      = (if team.contains m.home then 1 else 0) + if team.contains m.guest then 1 else 0 := by
  rw [← countP_beq_eq_ite h, ← countP_beq_eq_ite h]
  refine countP_or_of_disjoint fun p _ hhome => ?_
  rw [← BEq.congr_right hhome, BEq.comm, hself]

/-- Exactly one player is on the team. -/
theorem splits_iff (h : AllDifferent team) (hself : (m.home == m.guest) = false) :
    splits team m = true ↔ team.countP (m.involves ·) = 1 := by
  rw [countP_team h hself, splits]
  cases team.contains m.home <;> cases team.contains m.guest <;> decide

omit [EquivBEq α] in
/-- Both players are on the team just when two of the team meet. -/
theorem contains_both_iff [PartialEquivBEq α] (hself : (m.home == m.guest) = false) :
    (team.contains m.home = true ∧ team.contains m.guest = true) ↔
      ∃ p ∈ team, ∃ q ∈ team, (p == q) = false ∧ m.isBetween p q = true := by
  simp only [List.contains_iff_exists_mem_beq]
  constructor
  · rintro ⟨⟨p, hp, hhome⟩, q, hq, hguest⟩
    refine ⟨p, hp, q, hq, ?_, ?_⟩
    · rw [← BEq.congr_left hhome, ← BEq.congr_right hguest, hself]
    · rw [Match.isBetween, hhome, hguest]
      rfl
  · rintro ⟨p, hp, q, hq, -, hbetween⟩
    rcases Bool.or_eq_true_iff.mp hbetween with hbetween | hbetween
    all_goals obtain ⟨hhome, hguest⟩ := Bool.and_eq_true_iff.mp hbetween
    · exact ⟨⟨p, hp, hhome⟩, q, hq, hguest⟩
    · exact ⟨⟨q, hq, hhome⟩, p, hp, hguest⟩

/-- At most one player is on the team just when no two of the team meet. -/
theorem countP_team_le_one_iff (h : AllDifferent team) (hself : (m.home == m.guest) = false) :
    team.countP (m.involves ·) ≤ 1 ↔
      ∀ p ∈ team, ∀ q ∈ team, (p == q) = false → m.isBetween p q = false := by
  have hboth : team.countP (m.involves ·) ≤ 1 ↔
      ¬ (team.contains m.home = true ∧ team.contains m.guest = true) := by
    rw [countP_team h hself]
    cases team.contains m.home <;> cases team.contains m.guest <;> decide
  rw [hboth, contains_both_iff hself]
  simp only [not_exists, not_and, Bool.not_eq_true]

/-- **Exactly one of a team in each match**, with as many matches as players on the team and nobody
of them in two matches, is the same as all of the team playing apart. -/
theorem all_splits_iff (h : AllDifferent team) (hself : ∀ n ∈ ns, (n.home == n.guest) = false)
    (honce : ∀ p ∈ team, ns.countP (Match.involves p) ≤ 1) (hsize : ns.length = team.length) :
    ns.all (splits team) = true ↔ PlaysApart team ns := by
  -- the pairs of a match and a player of the team in it
  have hpairs := sum_countP_comm (fun n p => Match.involves p n) ns team
  rw [List.all_eq_true]
  constructor
  · intro hsplits
    have hone : ∀ n ∈ ns, team.countP (n.involves ·) = 1 := fun n hn =>
      (splits_iff h (hself n hn)).mp (hsplits n hn)
    rw [sum_map_eq_mul hone, Nat.mul_one, hsize] at hpairs
    refine ⟨fun p hp => List.countP_pos_iff.mp ?_, fun p hp q hq hpq n hn => ?_⟩
    · rw [eq_one_of_le_one honce hpairs.symm p hp]
      exact Nat.one_pos
    · exact (countP_team_le_one_iff h (hself n hn)).mp (Nat.le_of_eq (hone n hn)) p hp q hq hpq
  · intro hapart n hn
    have hone : ∀ p ∈ team, ns.countP (Match.involves p) = 1 := fun p hp =>
      Nat.le_antisymm (honce p hp) (List.countP_pos_iff.mpr (hapart.plays p hp))
    have hle : ∀ n ∈ ns, team.countP (n.involves ·) ≤ 1 := fun n hn =>
      (countP_team_le_one_iff h (hself n hn)).mpr
        fun p hp q hq hpq => hapart.apart p hp q hq hpq n hn
    rw [sum_map_eq_mul hone, Nat.mul_one, ← hsize] at hpairs
    exact (splits_iff h (hself n hn)).mpr (eq_one_of_le_one hle hpairs n hn)

end Team

/-! ## 4. The turn apart -/

section Apart

variable {ms : List Fixture} {last : Value}

/-- **The first question finds the first turn in which all who were at home in the last turn play,
and no two of them meet.** -/
theorem ask_apart_iff
    (hkeys : ∀ m ∈ ms, m.turn.isKey = true ∧ m.home.isKey = true ∧ m.guest.isKey = true)
    (honce : ∀ m ∈ ms, AllDifferent (present ms m.turn))
    (hsize : ∀ m ∈ ms, ∀ n ∈ ms,
      (Schedule.ofTurn ms m.turn).length = (Schedule.ofTurn ms n.turn).length)
    (hlast : ∃ m ∈ ms, (m.turn == last) = true) (excluded : List Value) :
    ∃ answer, ask .apart last (.value (.list excluded)) (ms.map Row.ofFixture) = .ok answer ∧
      (∀ t, answer = some t ↔ Pick.IsFirst
        (fun t => PlaysApart (homeTeam ms last) (Schedule.ofTurn ms t)) (openTurns ms excluded) t) ∧
      (answer = none ↔ ∀ t ∈ openTurns ms excluded,
        ¬ PlaysApart (homeTeam ms last) (Schedule.ofTurn ms t)) := by
  have hkey : ∀ m ∈ ms, m.home.isKey = true ∧ m.guest.isKey = true := fun m hm => (hkeys m hm).2
  obtain ⟨n, hn, hlast⟩ := hlast
  have hteam : AllDifferent (homeTeam ms last) := by
    rw [homeTeam, ← ofTurn_congr hlast]
    exact (List.pairwise_append.mp (honce n hn)).1
  have hlength : (homeTeam ms last).length = (Schedule.ofTurn ms n.turn).length := by
    rw [homeTeam, Schedule.homes, List.length_map, ofTurn_congr hlast]
  have hapart : ∀ t ∈ openTurns ms excluded, isApart (homeTeam ms last) ms t = true ↔
      PlaysApart (homeTeam ms last) (Schedule.ofTurn ms t) := by
    intro t ht
    obtain ⟨m, hm, rfl⟩ := exists_of_mem_openTurns ht
    exact all_splits_iff hteam (not_self_of_present (honce m hm))
      (fun p _ => countP_involves_le_one (honce m hm) p) (by rw [hlength, hsize m hm n hn])
  refine ⟨_, (ask_eq .apart (fun m hm => (hkeys m hm).1) last excluded
    fun _ m hm => (hkey m hm).1).trans (apart?_eq hkey last _), fun t => ?_, ?_⟩
  · rw [← Pick.isFirst_congr hapart, Pick.isFirst_iff_find?]
    simp only [Bool.decide_eq_true]
  · rw [List.find?_eq_none]
    exact forall₂_congr fun t ht => not_congr (hapart t ht)

/-- Players 1 and 3 are at home in turn 1.  In turn 2 they meet, and in turn 3 they play apart. -/
theorem ask_apart_iff_four :
    let ms : List Fixture := [⟨.int 1, .int 1, .int 2⟩, ⟨.int 1, .int 3, .int 4⟩,
      ⟨.int 2, .int 1, .int 3⟩, ⟨.int 2, .int 4, .int 2⟩, ⟨.int 3, .int 4, .int 1⟩,
      ⟨.int 3, .int 2, .int 3⟩]
    ask .apart (.int 1) (.value (.list [.int 1])) (ms.map Row.ofFixture)
      = .ok (some (.int 3)) := by
  intro ms
  obtain ⟨answer, hask, hsome, -⟩ := @ask_apart_iff ms (.int 1) (by decide) (by decide)
    (by decide) (by decide) [.int 1]
  have hthree : PlaysApart (homeTeam ms (.int 1)) (Schedule.ofTurn ms (.int 3)) :=
    ⟨by decide, by decide⟩
  have htwo : ¬ PlaysApart (homeTeam ms (.int 1)) (Schedule.ofTurn ms (.int 2)) := fun h =>
    absurd (h.apart (.int 1) List.mem_cons_self (.int 3)
      (List.mem_cons_of_mem _ List.mem_cons_self) rfl _ List.mem_cons_self) nofun
  have hanswer : answer = some (.int 3) := by
    refine (hsome (.int 3)).mpr ⟨[.int 2], [], rfl, hthree, fun t ht => ?_⟩
    rwa [List.mem_singleton.mp ht]
  rw [hask, hanswer]

end Apart

/-! ## 5. The streaks continued -/

section Carried

/-- How many of those who play in the last turn have the same role in the other turn. -/
def continuing (ms : List Fixture) (last t : Value) : Nat :=
  (present ms last).countP fun p => Schedule.roleIn p ms t == Schedule.roleIn p ms last

/-- How many of those who play in the last turn play in the last match of the other turn. -/
def closing (ms : List Fixture) (last t : Value) : Nat :=
  (present ms last).countP fun p => (Schedule.ofTurn ms t).getLast?.any (Match.hasPlayer p)

variable {ms ns : List Fixture} {last t : Value} {p : Value}

/-- Whoever plays once stands in a streak of one match. -/
theorem running_add_running (hone : ns.countP (Match.hasPlayer p) = 1) :
    Streak.running .home p ns + Streak.running .guest p ns = 1 := by
  rw [← Schedule.length_roles, List.length_eq_one_iff] at hone
  obtain ⟨q, hq⟩ := hone
  rw [Streak.running, Streak.running, hq]
  cases q <;> rfl

/-- **What is read off first for somebody who plays at most once**: a streak of one match for the
players of the last match, and none for others. -/
theorem current_add_current (hself : ∀ n ∈ ns, equals n.home n.guest = false)
    (honce : ns.countP (Match.hasPlayer p) ≤ 1) :
    Streak.current .home p ns + Streak.current .guest p ns
      = if ns.getLast?.any (Match.hasPlayer p) then 1 else 0 := by
  have hform := Sequencer.form_eq hself p
  cases hlast : ns.getLast?.any (Match.hasPlayer p) with
  | false =>
    rw [hlast] at hform
    obtain ⟨hhome, hguest⟩ := Sequencer.Form.mk.inj hform
    rw [hhome, hguest]
    rfl
  | true =>
    rw [hlast] at hform
    obtain ⟨hhome, hguest⟩ := Sequencer.Form.mk.inj hform
    obtain ⟨n, hn, hplays⟩ := (Option.any_eq_true _ _).mp hlast
    have hpos : 0 < ns.countP (Match.hasPlayer p) :=
      List.countP_pos_iff.mpr ⟨n, List.mem_of_getLast? hn, hplays⟩
    rw [hhome, hguest, if_pos rfl]
    exact running_add_running (Nat.le_antisymm honce hpos)

/-- **The streaks that a turn continues are told by its last match.** -/
theorem carried_eq_closing (h : AllDifferent (present ms t)) (last : Value) :
    carried (present ms last) ms t = closing ms last t := by
  unfold carried closing
  induction present ms last with
  | nil => rfl
  | cons p players ih =>
    rw [List.foldr_cons, ih, List.countP_cons, current_add_current
      (fun m hm => equals_of_not_beq (not_self_of_present h m hm)) (countP_hasPlayer_le_one h p),
      Nat.add_comm]

/-- **The third question finds the first turn whose last match has the fewest players of the last
turn**, as long as a turn is open. -/
theorem ask_carried_iff (hturn : ∀ m ∈ ms, m.turn.isKey = true)
    (honce : ∀ m ∈ ms, AllDifferent (present ms m.turn)) (last : Value) (excluded : List Value) :
    ∃ answer, ask .carried last (.value (.list excluded)) (ms.map Row.ofFixture) = .ok answer ∧
      (∀ t, answer = some t ↔ Pick.IsFirst
        (fun t => ∀ u ∈ openTurns ms excluded, closing ms last t ≤ closing ms last u)
        (openTurns ms excluded) t) ∧
      (answer = none ↔ openTurns ms excluded = []) := by
  refine ⟨_, ask_eq .carried hturn last excluded nofun, fun t => ?_,
    leastCarried?_eq_none_iff ms last _⟩
  have hcarried : ∀ t ∈ openTurns ms excluded,
      carried (present ms last) ms t = closing ms last t := by
    intro t ht
    obtain ⟨m, hm, rfl⟩ := exists_of_mem_openTurns ht
    exact carried_eq_closing (honce m hm) last
  rw [leastCarried?, Pick.least_congr hcarried, Pick.least_eq_some_iff]

/-- Both players of the last match of turn 2 play in turn 1, but only one of turn 3 does. -/
theorem ask_carried_iff_five :
    let ms : List Fixture := [⟨.int 1, .int 1, .int 2⟩, ⟨.int 1, .int 3, .int 4⟩,
      ⟨.int 2, .int 5, .int 2⟩, ⟨.int 2, .int 1, .int 3⟩, ⟨.int 3, .int 3, .int 2⟩,
      ⟨.int 3, .int 5, .int 4⟩]
    ask .carried (.int 1) (.value (.list [.int 1])) (ms.map Row.ofFixture)
      = .ok (some (.int 3)) := by
  intro ms
  obtain ⟨answer, hask, hsome, -⟩ := @ask_carried_iff ms (by decide) (by decide) (.int 1)
    [.int 1]
  have hanswer : answer = some (.int 3) := by
    refine (hsome (.int 3)).mpr ⟨[.int 2], [], rfl, by decide, fun t ht hleast => ?_⟩
    obtain rfl := List.mem_singleton.mp ht
    exact absurd (hleast (.int 3) (List.mem_cons_of_mem _ List.mem_cons_self)) (by decide)
  rw [hask, hanswer]

/-- **Continued streaks are missed.**  Players 1 and 2 have the same roles in turn 2 as in turn 1,
and nobody has in turn 3.  But both turns end with a match of two who play in turn 1, so the
question finds the first of them. -/
theorem continued_streaks_are_missed :
    let ms : List Fixture := [⟨.int 1, .int 1, .int 2⟩, ⟨.int 1, .int 3, .int 4⟩,
      ⟨.int 2, .int 1, .int 3⟩, ⟨.int 2, .int 4, .int 2⟩, ⟨.int 3, .int 4, .int 1⟩,
      ⟨.int 3, .int 2, .int 3⟩]
    (∀ m ∈ ms, AllDifferent (present ms m.turn)) ∧ openTurns ms [.int 1] = [.int 2, .int 3] ∧
      ask .carried (.int 1) (.value (.list [.int 1])) (ms.map Row.ofFixture)
        = .ok (some (.int 2)) ∧
      continuing ms (.int 1) (.int 2) = 2 ∧ continuing ms (.int 1) (.int 3) = 0 :=
  ⟨by decide, rfl, rfl, by decide, by decide⟩

end Carried

end Matchday.NextTurn
