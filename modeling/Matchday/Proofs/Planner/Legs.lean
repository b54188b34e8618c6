/-
# Legs of a round

A leg is a schedule with its turns numbered and a referee for every match.  The referees change
nothing about the schedule, so apart from them the two legs of a planner come from the same single
round (`leg_ok`): the first leg is that round (`firstLeg_isSingleRound`), and the mirrored leg
repeats it the other way round, its turns numbered on.  In both legs together everybody therefore
meets everybody else twice, once at home and once as guest (`legs_mirror`).
-/
import Matchday.Proofs.Planner.Acceptance
import Matchday.Proofs.Planner.Paths

namespace Matchday

/-! ## 1. Without the referees -/

/-- The match of a pairing. -/
def Pairing.fixture (c : Pairing) : Fixture := ⟨c.turn, c.home, c.guest⟩

/-- A schedule the other way round, with its turns numbered on. -/
def Schedule.mirrored (shift : Nat) (ms : List (Match Nat Value)) : List (Match Nat Value) :=
  ms.map fun m => ⟨m.turn + shift, m.guest, m.home⟩

/-- Every match that is given a referee gets one. -/
theorem Rota.length_of_assignAll {ms : List Fixture} {r r' : Rota} {vs : List Value}
    (h : Action.Runs (assignAll ms) r vs r') : vs.length = ms.length := by
  induction ms generalizing r vs with
  | nil =>
    obtain ⟨rfl, -⟩ := Action.runs_pure.mp h
    rfl
  | cons m ms ih =>
    obtain ⟨v, r₁, -, h⟩ := Action.runs_bind.mp h
    obtain ⟨us, r₂, hrest, h⟩ := Action.runs_bind.mp h
    obtain ⟨rfl, rfl⟩ := Action.runs_pure.mp h
    rw [List.length_cons, List.length_cons, ih hrest]

namespace Planner

variable {p : Planner} {rule : RefereeRule} {d : Draft}

theorem fixture_firstLeg (d : Draft) :
    (firstLeg d).map Pairing.fixture = Schedule.fixtures (d.map (·.1)) := by
  rw [firstLeg, Schedule.fixtures, List.map_map, List.map_map]
  rfl

theorem fixture_mirroredLeg (rule : RefereeRule) (d : Draft) :
    (mirroredLeg rule d).map Pairing.fixture = Schedule.fixtures
      (Schedule.mirrored (Schedule.turns (d.map (·.1))).length (d.map (·.1))) := by
  rw [mirroredLeg, Schedule.fixtures, Schedule.mirrored, List.map_map, List.map_map, List.map_map]
  rfl

/-- A round that is planned has participants enough. -/
theorem two_le_of_requireCount {n : Nat} (h : (requireCount rule n).result = .ok ()) : 2 ≤ n := by
  unfold requireCount at h
  split at h
  · exact absurd h (Outcome.result_reject_ne _ _)
  · rename_i hn
    exact Nat.le_of_not_lt hn

/-- **A draft is the schedule with its turns numbered**, and a referee for every match. -/
theorem draft_ok (h : (draft p rule).result = .ok d) :
    2 ≤ p.participants.length ∧
      ∃ ms, (schedule p.settings p.participants).result = .ok ms ∧ d.map (·.1) = renumbered ms := by
  unfold draft at h
  obtain ⟨_, hcount, h⟩ := Outcome.bind_eq_ok.mp h
  obtain ⟨_, -, h⟩ := Outcome.bind_eq_ok.mp h
  obtain ⟨ms, hms, h⟩ := Outcome.bind_eq_ok.mp h
  obtain ⟨rota, -, h⟩ := Outcome.bind_eq_ok.mp h
  obtain ⟨referees, hreferees, h⟩ := Outcome.bind_eq_ok.mp h
  cases h
  have hlen := Rota.length_of_assignAll ⟨hreferees, rfl⟩
  rw [List.length_map] at hlen
  exact ⟨two_le_of_requireCount hcount, ms, hms, List.map_fst_zip (Nat.le_of_eq hlen.symm)⟩

/-- **Both legs come from one schedule**, whatever the rule for referees. -/
theorem leg_ok {rule half : Value} {leg : Leg} (h : (p.leg rule half).result = .ok leg) :
    2 ≤ p.participants.length ∧ ∃ ms, (schedule p.settings p.participants).result = .ok ms ∧
      ((Half.read half).result = .ok .first →
        leg.map Pairing.fixture = Schedule.fixtures (renumbered ms)) ∧
      ((Half.read half).result = .ok .mirrored →
        leg.map Pairing.fixture = Schedule.fixtures
          (Schedule.mirrored (Schedule.turns (renumbered ms)).length (renumbered ms))) := by
  unfold Planner.leg at h
  obtain ⟨r, -, h⟩ := Outcome.bind_eq_ok.mp h
  obtain ⟨half', hhalf, h⟩ := Outcome.bind_eq_ok.mp h
  obtain ⟨d, hd, h⟩ := Outcome.bind_eq_ok.mp h
  cases h
  obtain ⟨h2, ms, hms, hmatches⟩ := draft_ok hd
  refine ⟨h2, ms, hms, fun hfirst => ?_, fun hmirrored => ?_⟩
  · cases hhalf.symm.trans hfirst
    rw [legOf, fixture_firstLeg, hmatches]
  · cases hhalf.symm.trans hmirrored
    rw [legOf, fixture_mirroredLeg, hmatches]

/-! ## 2. The first leg -/

/-- **The first leg is a single round**, whichever way its schedule came about: every two
participants meet once, nobody plays twice in a turn, and the turns ascend from one on without a
gap.  Unless the sequencer swapped matches to shorten streaks, it is balanced as well. -/
theorem firstLeg_isSingleRound {p : Planner} {source : Source} {rule half : Value} {leg : Leg}
    (hset : (accept p.participantKind source).result = .ok p.participants)
    (hbye : .bye ∉ p.participants) (hhalf : (Half.read half).result = .ok .first)
    (hleg : (p.leg rule half).result = .ok leg) :
    ∃ ms : List (Match Nat Value), leg.map Pairing.fixture = Schedule.fixtures ms ∧
      leg.length = p.participants.length * (p.participants.length - 1) / 2 ∧
      IsSingleRound p.participants 1 ms ∧
      (¬ (IsSequenced p.settings p.participants.length ∧
          p.settings.shortensStreaks.isOn = true) →
        IsBalanced p.participants ms) := by
  obtain ⟨-, -, -, hkey, hd⟩ := accept_eq_ok_iff.mp hset
  obtain ⟨h2, ms, hms, hfirst, -⟩ := leg_ok hleg
  obtain ⟨hfits, hbalanced⟩ := schedule_fits h2 hd hbye hkey hms
  have hround := renumbered_isSingleRound hfits.round hd h2 hfits.inBlocks
  refine ⟨renumbered ms, hfirst hhalf, ?_, hround, fun hnot p' hp' r => ?_⟩
  · have hlen := congrArg List.length (hfirst hhalf)
    rw [List.length_map, Schedule.fixtures, List.length_map] at hlen
    have hcount := hround.round.two_mul_length hd
    omega
  · rw [gamesAs_renumbered]
    exact hbalanced hnot p' hp' r

/-- Three participants play a balanced single round under the default settings. -/
theorem firstLeg_isSingleRound_three :
    ∃ (leg : Leg) (ms : List (Match Nat Value)),
      ((⟨.any, .any, .default, [.text "Ann", .int 2, .tuple [.none]]⟩ : Planner).leg
        (.rule .other) (.half .first)).result = .ok leg ∧
      leg.map Pairing.fixture = Schedule.fixtures ms ∧ leg.length = 3 ∧
      IsSingleRound [.text "Ann", .int 2, .tuple [.none]] 1 ms ∧
      IsBalanced [.text "Ann", .int 2, .tuple [.none]] ms := by
  have hset : (accept .any (.value (.list [.text "Ann", .int 2, .tuple [.none]]))).result
      = .ok [.text "Ann", .int 2, .tuple [.none]] := rfl
  obtain ⟨leg, hleg⟩ : ∃ leg,
      ((⟨.any, .any, .default, [.text "Ann", .int 2, .tuple [.none]]⟩ : Planner).leg
        (.rule .other) (.half .first)).result = .ok leg := ⟨_, rfl⟩
  obtain ⟨ms, hms, hlen, hround, hbalanced⟩ :=
    firstLeg_isSingleRound (p := ⟨.any, .any, .default, _⟩) hset (by simp) rfl hleg
  refine ⟨leg, ms, hleg, hms, hlen, hround, hbalanced ?_⟩
  rintro ⟨-, hon⟩
  cases hon

/-! ## 3. Both legs -/

/-- The turns of a schedule in order are as many as there are numbers for them. -/
theorem length_turns_of_inOrder {first last : Nat} {ms : List (Match Nat Value)}
    (h : InOrder first last ms) : (Schedule.turns ms).length = last - first := by
  have hperm : (Schedule.turns ms).Perm (List.range' first (last - first)) := by
    refine (List.perm_ext_iff_of_nodup (allDifferent_eraseDups _).nodup List.nodup_range').mpr ?_
    intro t
    rw [List.mem_eraseDups, h.turn_iff, List.mem_range'_1]
    omega
  rw [hperm.length_eq, List.length_range']

/-- Turns that are numbered on stay in order. -/
theorem inOrder_mirrored {first last : Nat} {ms : List (Match Nat Value)}
    (h : InOrder first last ms) (shift : Nat) :
    InOrder (first + shift) (last + shift) (Schedule.mirrored shift ms) := by
  have hturns : (Schedule.mirrored shift ms).map (·.turn) = (ms.map (·.turn)).map (· + shift) := by
    rw [Schedule.mirrored, List.map_map, List.map_map]
    rfl
  constructor
  · rw [hturns, List.pairwise_map]
    exact h.ascending.imp fun hle => Nat.add_le_add_right hle shift
  · intro t
    rw [hturns, List.mem_map]
    constructor
    · rintro ⟨u, hu, rfl⟩
      have := (h.turn_iff u).mp hu
      omega
    · intro ht
      exact ⟨t - shift, (h.turn_iff _).mpr (by omega), by omega⟩

/-- The other way round, roles are exchanged. -/
theorem gamesAs_mirrored (r : Role) (p : Value) (shift : Nat) (ms : List (Match Nat Value)) :
    Tally.gamesAs r p (Schedule.mirrored shift ms) = Tally.gamesAs r.opposite p ms := by
  unfold Tally.gamesAs
  rw [Schedule.mirrored, List.countP_map]
  cases r <;> rfl

theorem gamesAs_fixtures (r : Role) (p : Value) (ms : List (Match Nat Value)) :
    Tally.gamesAs r p (Schedule.fixtures ms) = Tally.gamesAs r p ms := by
  unfold Tally.gamesAs
  rw [Schedule.fixtures, List.countP_map]
  cases r <;> rfl

/-- Two participants of a round meet at home of one or of the other. -/
theorem countP_atHome {ps : List Value} {ms : List (Match Nat Value)} (h : IsRound ps ms)
    {p q : Value} (hp : p ∈ ps) (hq : q ∈ ps) (hpq : (p == q) = false) :
    ms.countP (fun m => m.home == p && m.guest == q)
      + ms.countP (fun m => m.home == q && m.guest == p) = 1 := by
  rw [← h.meet_once p hp q hq hpq]
  refine (countP_or_of_disjoint fun m _ hm => ?_).symm
  have hhome := (Bool.and_eq_true _ _ |>.mp hm).1
  rw [BEq.congr_left hhome, hpq, Bool.false_and]

/-- **Both legs together**: everybody is at home against everybody else once. -/
theorem countP_bothLegs {ps : List Value} {ms : List (Match Nat Value)} (h : IsRound ps ms)
    (shift : Nat) {p q : Value} (hp : p ∈ ps) (hq : q ∈ ps) (hpq : (p == q) = false) :
    (Schedule.fixtures ms ++ Schedule.fixtures (Schedule.mirrored shift ms)).countP
      (fun m => m.home == p && m.guest == q) = 1 := by
  rw [← countP_atHome h hp hq hpq, List.countP_append, Schedule.fixtures, Schedule.fixtures,
    Schedule.mirrored, List.map_map, List.countP_map, List.countP_map]
  refine congrArg₂ (· + ·) rfl (List.countP_congr fun m _ => ?_)
  rw [Function.comp_apply, Bool.and_comm]
  rfl

/-- **Both legs together** give everybody as many matches at home as there are others, and as many
as guest. -/
theorem gamesAs_bothLegs {ps : List Value} {ms : List (Match Nat Value)} (h : IsRound ps ms)
    (hd : AllDifferent ps) (shift : Nat) {p : Value} (hp : p ∈ ps) (r : Role) :
    Tally.gamesAs r p (Schedule.fixtures ms ++ Schedule.fixtures (Schedule.mirrored shift ms))
      = ps.length - 1 := by
  have hall := h.gamesAs_add hd hp
  rw [Tally.gamesAs_append, gamesAs_fixtures, gamesAs_fixtures, gamesAs_mirrored]
  cases r
  · rw [Role.opposite]
    omega
  · rw [Role.opposite]
    omega

/-- **The two legs mirror each other**, and in both together everybody is at home against everybody
else once.  The mirrored leg repeats the first one match by match, the other way round, and its
turns follow those of the first without a gap. -/
theorem legs_mirror {p : Planner} {source : Source} {rule rule' first mirrored : Value}
    {leg leg' : Leg} (hset : (accept p.participantKind source).result = .ok p.participants)
    (hbye : .bye ∉ p.participants) (hfirst : (Half.read first).result = .ok .first)
    (hmirrored : (Half.read mirrored).result = .ok .mirrored)
    (hleg : (p.leg rule first).result = .ok leg)
    (hleg' : (p.leg rule' mirrored).result = .ok leg') :
    ∃ (ms : List (Match Nat Value)) (turns : Nat), turns = (Schedule.turns ms).length ∧
      leg.map Pairing.fixture = Schedule.fixtures ms ∧
      leg'.map Pairing.fixture
        = Schedule.fixtures (ms.map fun m => ⟨m.turn + turns, m.guest, m.home⟩) ∧
      InOrder 1 (turns + 1) ms ∧
      InOrder (turns + 1) (2 * turns + 1) (ms.map fun m => ⟨m.turn + turns, m.guest, m.home⟩) ∧
      (∀ a ∈ p.participants, ∀ b ∈ p.participants, (a == b) = false →
        (leg ++ leg').countP (fun c => c.home == a && c.guest == b) = 1) ∧
      (∀ a ∈ p.participants, ∀ r,
        Tally.gamesAs r a ((leg ++ leg').map Pairing.fixture) = p.participants.length - 1) := by
  obtain ⟨-, -, -, hkey, hd⟩ := accept_eq_ok_iff.mp hset
  obtain ⟨h2, ms, hms, hfixtures, -⟩ := leg_ok hleg
  obtain ⟨-, ms', hms', -, hfixtures'⟩ := leg_ok hleg'
  cases hms.symm.trans hms'
  have hfixtures := hfixtures hfirst
  have hfixtures' := hfixtures' hmirrored
  have hfits := (schedule_fits h2 hd hbye hkey hms).1
  have hround := renumbered_isSingleRound hfits.round hd h2 hfits.inBlocks
  have hturns : (Schedule.turns (renumbered ms)).length = turnCount p.participants.length := by
    rw [length_turns_of_inOrder hround.inOrder]
    omega
  have horder := hround.inOrder
  rw [← hturns, Nat.add_comm] at horder
  have hshift := inOrder_mirrored horder (Schedule.turns (renumbered ms)).length
  rw [Nat.add_comm 1, Nat.add_right_comm, ← Nat.two_mul] at hshift
  refine ⟨renumbered ms, _, rfl, hfixtures, hfixtures', horder, hshift, ?_, ?_⟩
  · intro a ha b hb hab
    have hcount : ∀ c : Leg, c.countP (fun c => c.home == a && c.guest == b)
        = (c.map Pairing.fixture).countP fun m => m.home == a && m.guest == b := by
      intro c
      rw [List.countP_map]
      rfl
    rw [hcount, List.map_append, hfixtures, hfixtures']
    exact countP_bothLegs hround.round _ ha hb hab
  · intro a ha r
    rw [List.map_append, hfixtures, hfixtures']
    exact gamesAs_bothLegs hround.round hd _ ha r

/-- Four participants whose matches are swapped to shorten streaks still play a double round. -/
theorem legs_mirror_four :
    ∃ (leg leg' : Leg),
      ((⟨.any, .any, { Settings.default with shortensStreaks := .bool true },
          [.text "Ann", .int 2, .tuple [.none], .none]⟩ : Planner).leg
        (.rule .other) (.half .first)).result = .ok leg ∧
      ((⟨.any, .any, { Settings.default with shortensStreaks := .bool true },
          [.text "Ann", .int 2, .tuple [.none], .none]⟩ : Planner).leg
        (.rule .other) (.half .mirrored)).result = .ok leg' ∧
      ∀ a ∈ [Value.text "Ann", .int 2, .tuple [.none], .none], ∀ r,
        Tally.gamesAs r a ((leg ++ leg').map Pairing.fixture) = 3 := by
  have hset : (accept .any (.value (.list [.text "Ann", .int 2, .tuple [.none], .none]))).result
      = .ok [.text "Ann", .int 2, .tuple [.none], .none] := rfl
  obtain ⟨leg, hleg⟩ : ∃ leg,
      ((⟨.any, .any, { Settings.default with shortensStreaks := .bool true },
          [.text "Ann", .int 2, .tuple [.none], .none]⟩ : Planner).leg
        (.rule .other) (.half .first)).result = .ok leg := ⟨_, rfl⟩
  obtain ⟨leg', hleg'⟩ : ∃ leg,
      ((⟨.any, .any, { Settings.default with shortensStreaks := .bool true },
          [.text "Ann", .int 2, .tuple [.none], .none]⟩ : Planner).leg
        (.rule .other) (.half .mirrored)).result = .ok leg := ⟨_, rfl⟩
  obtain ⟨-, -, -, -, -, -, -, -, hcounts⟩ := legs_mirror (p := ⟨.any, .any, _, _⟩) hset (by simp)
    rfl rfl hleg hleg'
  exact ⟨leg, leg', hleg, hleg', hcounts⟩

end Planner
end Matchday
