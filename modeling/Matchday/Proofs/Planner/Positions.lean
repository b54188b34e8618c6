/-
# Positions decide

A plan depends on the positions of its participants and on nothing else about them.  Participants
with other names, who are accepted as well, get the same plan with the names exchanged, or fail for
the same reason (`leg_map`).  Every component takes its part in that: the circle and the tables
place participants by number (`taken_map`), the sequencer and the rota compare them
(`Sequencer.Names.inStep_sequence`, `Rota.duties_map`), and the turns of the plan are
numbered from one whatever they were called (`renumbered_map`).

Some values have a part of their own.  Nobody plays against a bye; before the first duty nothing was
on duty last, so under the fourth rule nobody may be called that; and what is not equal to itself has
to stay so, since it is never found to have played or to have been on duty.
-/
import Matchday.Proofs.Planner.Referees
import Matchday.Proofs.Rota.Places
import Matchday.Proofs.Sequencer.Renaming

namespace Matchday.Planner

variable {ps : List Value} {f : Value → Value}

/-! ## 1. Schedules -/

/-- Places are taken by number. -/
theorem taken_map {first : Nat} {places : List (Match Nat Nat)}
    (h : IsSingleRound (List.range ps.length) first places) :
    Schedule.fixtures (Schedule.taken (ps.map f) places)
      = (Schedule.fixtures (Schedule.taken ps places)).map (·.map id f) := by
  rw [Circle.fixtures_taken, Circle.fixtures_taken, List.map_map]
  refine List.map_congr_left fun m hm => ?_
  obtain ⟨hhome, hguest⟩ := h.round.players_mem m hm
  rw [Match.map, Circle.sitting_map (List.mem_range.mp hhome),
    Circle.sitting_map (List.mem_range.mp hguest)]
  rfl

/-- What is asked of participants and of the names they are to get instead: all are different, all
serve as keys, none is the bye, and the same of them are equal to themselves. -/
structure Exchangeable (ps : List Value) (f : Value → Value) : Prop where
  different : AllDifferent ps
  different_map : AllDifferent (ps.map f)
  key : ∀ p ∈ ps, p.isKey = true
  key_map : ∀ p ∈ ps.map f, p.isKey = true
  not_bye : .bye ∉ ps
  not_bye_map : .bye ∉ ps.map f
  equals_self : ∀ p ∈ ps, equals (f p) (f p) = equals p p

namespace Exchangeable

variable {s : Settings} (h : Exchangeable ps f)
include h

/-- Different participants who get different names are told apart by them. -/
theorem tellsApart : TellsApart (· ∈ ps) f :=
  tellsApart_of_allDifferent h.different h.different_map

theorem keepsEqual : KeepsEqual (· ∈ ps) f := keepsEqual_of_tellsApart h.tellsApart h.equals_self

/-- The names that a sequencer of the round has to do with. -/
theorem names : Sequencer.Names (fun t => ∃ k : Int, t = .int k) (· ∈ ps) id f where
  turns := fun _ _ _ _ => rfl
  turns_equal := fun _ _ _ _ => rfl
  players := h.tellsApart
  players_equal := h.keepsEqual
  turn_key := by
    rintro _ ⟨k, rfl⟩
    exact ⟨Value.isKey_int k, Value.isKey_int k⟩
  player_key := fun p hp => ⟨h.key p hp, h.key_map _ (List.mem_map_of_mem hp)⟩
  turn_none := fun _ _ => Iff.rfl

/-- **The circle has the renamed schedule**, in order or not. -/
theorem circled_map (h2 : 2 ≤ ps.length) :
    (circled s (ps.map f)).result = (circled s ps).result.map (List.map (·.map id f)) := by
  have hplaces := Circle.places_isSingleRound h2
  have hlen : (ps.map f).length = ps.length := List.length_map f
  have hplan := Circle.plan_eq_places h2 h.different h.not_bye fun _ => h.key
  have hplan' := Circle.plan_eq_places (by rwa [hlen]) h.different_map h.not_bye_map
    fun _ => h.key_map
  rw [hlen, taken_map hplaces] at hplan'
  have hwithin : Sequencer.Within (fun t => ∃ k : Int, t = .int k) (· ∈ ps)
      (Schedule.fixtures (Schedule.taken ps (Circle.places ps.length))) := by
    intro m hm
    refine ⟨?_, Circle.mem_of_mem_taken h.different hplaces m hm⟩
    obtain ⟨n, -, rfl⟩ := List.mem_map.mp hm
    exact ⟨n.turn, rfl⟩
  have hordered : ∀ prefersApart shortens, _ = _ := fun prefersApart shortens =>
    (h.names.inStep_sequence (fun _ => id) hwithin
      (s := Sequencer.create ps (.ofFixtures _) prefersApart shortens) rfl rfl).1
  unfold circled
  rw [Outcome.result_bind, Outcome.result_bind, hplan, hplan', hlen]
  dsimp only [bind, Except.bind]
  cases isWithin s.sequencedFrom s.sequencedTo ps.length with
  | error e => rfl
  | ok within =>
    cases within with
    | false => rfl
    | true => exact hordered s.prefersApart.isOn s.shortensStreaks.isOn

/-- **Whichever way a schedule comes about, it is the renamed one.** -/
theorem schedule_map (h2 : 2 ≤ ps.length) :
    (schedule s (ps.map f)).result = (schedule s ps).result.map (List.map (·.map id f)) := by
  have hlen : (ps.map f).length = ps.length := List.length_map f
  rw [result_schedule, result_schedule]
  split
  · cases htable : Ideal.tables.lookup ps.length with
    | some turns =>
      obtain ⟨-, hchecked⟩ := Ideal.tables_checked _ (Ideal.mem_of_lookup htable)
      rw [Ideal.schedule?_eq htable, Ideal.schedule?_eq (by rwa [hlen]),
        taken_map (hchecked.isSingleRound h2)]
      rfl
    | none =>
      rw [Ideal.schedule?_eq_none htable, Ideal.schedule?_eq_none (by rwa [hlen])]
      exact h.circled_map h2
  · exact h.circled_map h2

end Exchangeable

/-- The turns are numbered alike. -/
theorem renumbered_map (ms : List Fixture) :
    renumbered (ms.map (·.map id f)) = (renumbered ms).map (·.map id f) := by
  have hturns : Schedule.turns (ms.map (·.map id f)) = Schedule.turns ms := by
    rw [Schedule.turns_map (f := id) fun _ _ _ _ => rfl, List.map_id]
  rw [renumbered, hturns, renumbered, List.map_map, List.map_map]
  rfl

/-! ## 2. Referees -/

/-- A referee under the other name.  Nobody stays nobody. -/
def renamedReferee (rule : RefereeRule) (f : Value → Value) (v : Value) : Value :=
  match rule with
  | .nobody => v
  | _ => f v

/-- A pairing of participants under their other names. -/
def renamedPairing (rule : RefereeRule) (f : Value → Value) (c : Pairing) : Pairing :=
  ⟨c.turn, f c.home, f c.guest, renamedReferee rule f c.referee⟩

/-- A match with its referee, all under their other names. -/
def renamedDuty (rule : RefereeRule) (f : Value → Value) (d : Match Nat Value × Value) :
    Match Nat Value × Value :=
  (d.1.map id f, renamedReferee rule f d.2)

/-- A round with other referees has three participants or more. -/
theorem three_le_of_requireCount {n : Nat} (h : (requireCount .other n).result = .ok ()) :
    3 ≤ n := by
  have h2 := two_le_of_requireCount h
  unfold requireCount at h
  rw [if_neg (by simp only [Limits.smallestRound]; omega)] at h
  split at h
  · exact absurd h (Outcome.result_reject_ne _ _)
  · rename_i hn
    exact Nat.le_of_not_lt fun hlt => hn ⟨rfl, hlt⟩

/-- **The renamed referees are on duty.** -/
theorem assignAll_map {rule : RefereeRule} (h : Exchangeable ps f)
    (hcount : (requireCount rule ps.length).result = .ok ())
    (hnone : rule = .other → .none ∉ ps ∧ .none ∉ ps.map f) {ms : List Fixture}
    (hms : ∀ m ∈ ms, m.home ∈ ps ∧ m.guest ∈ ps) :
    (Rota.assignAll (ms.map (·.map id f)) ⟨some rule, ps.map f, []⟩).1.result
      = (Rota.assignAll ms ⟨some rule, ps, []⟩).1.result.map
          (List.map (renamedReferee rule f)) := by
  by_cases hother : rule = .other
  · subst hother
    have h3 := three_le_of_requireCount hcount
    obtain ⟨vs, hvs⟩ := Rota.exists_duties h.different h3 [] ms
    have hnobody := Rota.Shares.of_nil (hnone rfl).1
    have hnobody' := Rota.Shares.of_nil (hnone rfl).2
    rw [List.length_map] at hnobody'
    have hvs' : Rota.duties (ps.map f) [] (ms.map (·.map id f)) = (some vs).map (List.map f) := by
      rw [← hvs]
      exact Rota.duties_map h.different h.different_map h.equals_self hnobody hnobody' hms
    obtain ⟨hruns, -⟩ := Rota.runs_assignAll_other.mpr ⟨hvs, rfl⟩
    obtain ⟨hruns', -⟩ := Rota.runs_assignAll_other.mpr ⟨hvs', rfl⟩
    exact hruns'.trans (congrArg (Except.map (List.map (renamedReferee .other f))) hruns).symm
  · obtain ⟨hruns, -⟩ : Action.Runs (Rota.assignAll ms) ⟨some rule, ps, []⟩ _ _ :=
      (Rota.runs_assignAll_of_ne rfl hother).mpr ⟨rfl, rfl⟩
    obtain ⟨hruns', -⟩ : Action.Runs (Rota.assignAll (ms.map (·.map id f)))
        ⟨some rule, ps.map f, []⟩ _ _ :=
      (Rota.runs_assignAll_of_ne rfl hother).mpr ⟨rfl, rfl⟩
    rw [hruns, hruns', Except.map, List.map_map, List.map_map]
    refine congrArg Except.ok (List.map_congr_left fun m _ => ?_)
    cases rule with
    | nobody | home | guest => rfl
    | other => exact absurd rfl hother

/-! ## 3. Legs -/

/-- The steps to a draft. -/
theorem result_draft (p : Planner) (rule : RefereeRule) :
    (draft p rule).result = (requireCount rule p.participants.length).result >>= fun _ =>
      (schedule p.settings p.participants).result >>= fun ms =>
        (Rota.assignAll (Schedule.fixtures (renumbered ms))
          ⟨some rule, p.participants, []⟩).1.result.map ((renumbered ms).zip ·) := by
  unfold draft
  simp only [Outcome.result_bind]
  cases (requireCount rule p.participants.length).result with
  | error e => rfl
  | ok _ =>
    cases (schedule p.settings p.participants).result with
    | error e => rfl
    | ok ms =>
      have hlast : ∀ x : Except Fault (List Value),
          (x >>= fun vs => (pure ((renumbered ms).zip vs) : Outcome Draft).result)
            = x.map ((renumbered ms).zip ·) := by
        rintro (e | vs) <;> rfl
      exact hlast _

/-- **A draft is the renamed one**, or it fails for the same reason. -/
theorem draft_map {p : Planner} {rule : RefereeRule} (h : Exchangeable p.participants f)
    (hnone : rule = .other → .none ∉ p.participants ∧ .none ∉ p.participants.map f) :
    (draft { p with participants := p.participants.map f } rule).result
      = (draft p rule).result.map (List.map (renamedDuty rule f)) := by
  rw [result_draft, result_draft]
  dsimp only
  rw [List.length_map]
  cases hcount : (requireCount rule p.participants.length).result with
  | error e => rfl
  | ok _ =>
    have h2 := two_le_of_requireCount hcount
    dsimp only [bind, Except.bind]
    rw [h.schedule_map h2]
    cases hschedule : (schedule p.settings p.participants).result with
    | error e => rfl
    | ok ms =>
      have hplayers := (schedule_fits h2 h.different h.not_bye h.key hschedule).1.round.players_mem
      have hfixtures : Schedule.fixtures (renumbered (ms.map (·.map id f)))
          = (Schedule.fixtures (renumbered ms)).map (·.map id f) := by
        rw [renumbered_map, Schedule.fixtures, Schedule.fixtures, List.map_map, List.map_map]
        rfl
      have hms : ∀ m ∈ Schedule.fixtures (renumbered ms),
          m.home ∈ p.participants ∧ m.guest ∈ p.participants := by
        intro m hm
        rw [Schedule.fixtures, renumbered, List.map_map] at hm
        obtain ⟨n, hn, rfl⟩ := List.mem_map.mp hm
        exact hplayers n hn
      dsimp only [Except.map]
      rw [hfixtures, assignAll_map h hcount hnone hms, renumbered_map]
      cases (Rota.assignAll (Schedule.fixtures (renumbered ms))
        ⟨some rule, p.participants, []⟩).1.result with
      | error e => rfl
      | ok vs => exact congrArg Except.ok List.zip_map

/-- The half of a draft is the renamed one. -/
theorem legOf_map (rule : RefereeRule) (d : Draft) (half : Half) :
    legOf rule (d.map (renamedDuty rule f)) half
      = (legOf rule d half).map (renamedPairing rule f) := by
  cases half with
  | first =>
    rw [legOf, firstLeg, List.map_map, legOf, firstLeg, List.map_map]
    rfl
  | mirrored =>
    have hturns : Schedule.turns ((d.map (renamedDuty rule f)).map (·.1))
        = Schedule.turns (d.map (·.1)) := by
      have hmatches : (d.map (renamedDuty rule f)).map (·.1)
          = (d.map (·.1)).map (·.map id f) := by
        rw [List.map_map, List.map_map]
        rfl
      rw [hmatches, Schedule.turns_map (f := id) fun _ _ _ _ => rfl, List.map_id]
    rw [legOf, mirroredLeg, hturns, List.map_map, legOf, mirroredLeg, List.map_map]
    refine List.map_congr_left fun x _ => ?_
    cases rule <;> rfl

/-- **A leg is the renamed one**, or it is not planned for the same reason. -/
theorem leg_map {p : Planner} {rule half : Value} {r : RefereeRule}
    (hrule : (p.ruleFor rule).result = .ok r) (h : Exchangeable p.participants f)
    (hnone : r = .other → .none ∉ p.participants ∧ .none ∉ p.participants.map f) :
    (leg { p with participants := p.participants.map f } rule half).result
      = (p.leg rule half).result.map (List.map (renamedPairing r f)) := by
  have hrule' : (ruleFor { p with participants := p.participants.map f } rule).result = .ok r := by
    rw [← hrule]
    cases rule <;> rfl
  unfold Planner.leg
  simp only [Outcome.result_bind, hrule, hrule']
  cases (Half.read half).result with
  | error e => rfl
  | ok half' =>
    dsimp only [bind, Except.bind]
    rw [draft_map h hnone]
    cases (draft p r).result with
    | error e => rfl
    | ok d => exact congrArg Except.ok (legOf_map r d half')

/-- **Positions decide.**  Participants who are accepted, and accepted under other names as well, get
the same plan under both, the names exchanged, or are turned away for the same reason.  A sequencer
on its own puts any schedule in the same order, and swaps the same matches, when its players get
other names that are told apart alike and its turns, which are whole numbers, get other numbers.
Names have to be equal to themselves when the first ones were; only what is no number is not. -/
theorem positions_decide :
    (∀ (p : Planner) (source source' : Source) (f : Value → Value) (rule half : Value)
        (r : RefereeRule),
      (accept p.participantKind source).result = .ok p.participants →
      (accept p.participantKind source').result = .ok (p.participants.map f) →
      .bye ∉ p.participants → .bye ∉ p.participants.map f →
      (p.ruleFor rule).result = .ok r →
      (r = .other → .none ∉ p.participants ∧ .none ∉ p.participants.map f) →
      (∀ v ∈ p.participants, equals (f v) (f v) = equals v v) →
      (leg { p with participants := p.participants.map f } rule half).result
        = (p.leg rule half).result.map (List.map (renamedPairing r f))) ∧
    ∀ (ps : List Value) (ms : List Fixture) (u : Int → Int) (g : Value → Value)
        (prefersApart shortens : Bool),
      (∀ m ∈ ms, ∃ k, m.turn = .int k) →
      (∀ j k, Schedule.IsTurn ms (.int j) → Schedule.IsTurn ms (.int k) → u j = u k → j = k) →
      TellsApart (Sequencer.IsName ps ms) g →
      (∀ p, Sequencer.IsName ps ms p → equals (g p) (g p) = equals p p) →
      (∀ p, Sequencer.IsName ps ms p → p.isKey = true ∧ (g p).isKey = true) →
      (Sequencer.sequence (.create (ps.map g)
          (.ofFixtures (ms.map (·.map (Sequencer.onWholes u) g))) prefersApart shortens)).1.result
        = (Sequencer.sequence (.create ps (.ofFixtures ms) prefersApart shortens)).1.result.map
            (List.map (·.map (Sequencer.onWholes u) g)) := by
  constructor
  · intro p source source' f rule half r hset hset' hbye hbye' hrule hnone hself
    obtain ⟨-, -, -, hkey, hd⟩ := accept_eq_ok_iff.mp hset
    obtain ⟨-, -, -, hkey', hd'⟩ := accept_eq_ok_iff.mp hset'
    have hexchange : Exchangeable p.participants f := ⟨hd, hd', hkey, hkey', hbye, hbye', hself⟩
    exact leg_map hrule hexchange hnone
  · intro ps ms u g prefersApart shortens hturn hu hg hself hkey
    exact Sequencer.result_sequence_map hturn hu hg (keepsEqual_of_tellsApart hg hself) hkey
      prefersApart shortens

/-- Four participants who are each put in a tuple, and three turns that are numbered from zero. -/
theorem positions_decide_tuples :
    (∃ leg leg' : Leg,
      (Planner.leg ⟨.any, .any, .default, [.text "", .int 0, .tuple [], .bool true]⟩ (.rule .other)
        (.half .mirrored)).result = .ok leg ∧
      (Planner.leg ⟨.any, .any, .default, [.tuple [.text ""], .tuple [.int 0], .tuple [.tuple []],
        .tuple [.bool true]]⟩ (.rule .other) (.half .mirrored)).result = .ok leg' ∧
      leg' = leg.map (renamedPairing .other fun v => .tuple [v])) ∧
    ∃ ns ns' : List Fixture,
      (Sequencer.sequence (.create [.int 1, .int 2, .int 3] (.ofFixtures
        [⟨.int 5, .int 1, .int 2⟩, ⟨.int 7, .int 3, .int 1⟩, ⟨.int 6, .int 2, .int 3⟩])
        true true)).1.result = .ok ns ∧
      (Sequencer.sequence (.create [.tuple [.int 1], .tuple [.int 2], .tuple [.int 3]] (.ofFixtures
        [⟨.int 0, .tuple [.int 1], .tuple [.int 2]⟩, ⟨.int 2, .tuple [.int 3], .tuple [.int 1]⟩,
          ⟨.int 1, .tuple [.int 2], .tuple [.int 3]⟩])
        true true)).1.result = .ok ns' ∧
      ns' = ns.map (·.map (Sequencer.onWholes (· - 5)) fun v => .tuple [v]) := by
  obtain ⟨hplans, horders⟩ := positions_decide
  constructor
  · have hplan := hplans ⟨.any, .any, .default, [.text "", .int 0, .tuple [], .bool true]⟩
      (.value (.list [.text "", .int 0, .tuple [], .bool true]))
      (.value (.list [.tuple [.text ""], .tuple [.int 0], .tuple [.tuple []], .tuple [.bool true]]))
      (fun v => .tuple [v]) (.rule .other) (.half .mirrored) .other rfl rfl (by simp) (by simp) rfl
      (fun _ => ⟨by simp, by simp⟩) (by decide)
    obtain ⟨leg, hleg⟩ : ∃ leg, (Planner.leg ⟨.any, .any, .default,
        [.text "", .int 0, .tuple [], .bool true]⟩ (.rule .other) (.half .mirrored)).result
          = .ok leg := ⟨_, rfl⟩
    rw [hleg] at hplan
    exact ⟨leg, _, hleg, hplan, rfl⟩
  · have hnames : ∀ p, Sequencer.IsName [.int 1, .int 2, .int 3]
        [⟨.int 5, .int 1, .int 2⟩, ⟨.int 7, .int 3, .int 1⟩, ⟨.int 6, .int 2, .int 3⟩] p →
        equals (Value.tuple [p]) (Value.tuple [p]) = equals p p ∧
          p.isKey = true ∧ (Value.tuple [p]).isKey = true := by
      rintro p (hp | ⟨m, hm, hp⟩)
      · revert p
        decide
      · revert p
        revert m
        decide
    have horder := horders [.int 1, .int 2, .int 3]
      [⟨.int 5, .int 1, .int 2⟩, ⟨.int 7, .int 3, .int 1⟩, ⟨.int 6, .int 2, .int 3⟩] (· - 5)
      (fun v => .tuple [v]) true true (by simp) (by omega) (fun x _ y _ => Bool.and_true (x == y))
      (fun p hp => (hnames p hp).1) fun p hp => (hnames p hp).2
    obtain ⟨ns, hns⟩ : ∃ ns, (Sequencer.sequence (.create [.int 1, .int 2, .int 3] (.ofFixtures
        [⟨.int 5, .int 1, .int 2⟩, ⟨.int 7, .int 3, .int 1⟩, ⟨.int 6, .int 2, .int 3⟩])
        true true)).1.result = .ok ns := ⟨_, rfl⟩
    rw [hns] at horder
    exact ⟨ns, _, hns, horder, rfl⟩

end Matchday.Planner
