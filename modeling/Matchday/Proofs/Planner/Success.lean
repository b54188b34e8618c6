/-
# When planning succeeds

A schedule comes about for any two or more participants who serve as keys, the bye among them or
not, as soon as the question whether they are in the range of the sequencer has an answer
(`exists_schedule`).  What could stand in the way is a player who is no key or whom the sequencer
does not know, and the players of the circle are participants whoever they are: a seat without one
is vacant, and nobody plays against a vacant seat (`mem_of_mem_rotation`).

From a schedule on, drafts and legs are put together step by step.  `draft_eq_ok_iff` and
`leg_eq_ok_iff` say what the steps are: enough participants, a schedule, referees for the matches as
they are numbered, and the half that is asked for.
-/
import Matchday.Proofs.Planner.Paths

namespace Matchday

/-! ## 1. Ranges -/

/-- A value that has an order with every whole number. -/
def Value.ComparesWithWholes (v : Value) : Prop :=
  ∀ n : Int, (Value.before? (.int n) v).isSome = true ∧ (Value.before? v (.int n)).isSome = true

/-- Whole numbers have an order. -/
theorem Value.comparesWithWholes_int (k : Int) : (Value.int k).ComparesWithWholes := by
  intro n
  rw [before?_int, before?_int]
  exact ⟨rfl, rfl⟩

namespace Planner

/-- **Between bounds with an order it is decided who is in the range.** -/
theorem exists_isWithin {lower upper : Value} (hlower : lower.ComparesWithWholes)
    (hupper : upper.ComparesWithWholes) (n : Nat) : ∃ b, isWithin lower upper n = .ok b := by
  obtain ⟨below, hbelow⟩ := Option.isSome_iff_exists.mp (hlower n).2
  obtain ⟨above, habove⟩ := Option.isSome_iff_exists.mp (hupper n).1
  unfold isWithin Value.atMost?
  rw [hbelow, Option.map_some]
  cases below || equals lower (.int n) with
  | false => exact ⟨false, rfl⟩
  | true =>
    rw [habove]
    exact ⟨above || equals (.int n) upper, rfl⟩

end Planner

/-! ## 2. The circle, with or without the bye -/

namespace Circle

variable {ps : List Value}

/-- A seat that is not vacant has a participant, and so has the first one. -/
theorem sitting_mem (hne : ps ≠ []) {i : Nat}
    (h : (i == 0 || !isBye (sitting ps i)) = true) : sitting ps i ∈ ps := by
  by_cases hi : i < ps.length
  · rw [sitting_of_lt hi]
    exact List.getElem_mem hi
  · have hpos := List.length_pos_iff.mpr hne
    rw [sitting_of_le (by omega), show (i == 0) = false from beq_false_of_ne (by omega)] at h
    cases h

/-- **Whoever plays in the rotation is a participant.** -/
theorem mem_of_mem_rotation (hne : ps ≠ []) :
    ∀ m ∈ rotation ps, m.home ∈ ps ∧ m.guest ∈ ps := by
  intro m hm
  obtain ⟨t, -, hm⟩ := List.mem_flatMap.mp hm
  obtain ⟨seats, hseats, rfl⟩ := List.mem_map.mp hm
  obtain ⟨pair, hpair, rfl⟩ := List.mem_map.mp hseats
  obtain ⟨hhome, hguest⟩ := Bool.and_eq_true _ _ |>.mp (List.mem_filter.mp hpair).2
  exact ⟨sitting_mem hne hhome, sitting_mem hne hguest⟩

/-- The turns of the rotation are numbers. -/
theorem exists_turn_of_mem_rotation : ∀ m ∈ rotation ps, ∃ k : Nat, m.turn = .int k := by
  intro m hm
  obtain ⟨t, -, hm⟩ := List.mem_flatMap.mp hm
  obtain ⟨seats, -, rfl⟩ := List.mem_map.mp hm
  exact ⟨seats.turn, rfl⟩

/-- **The circle makes a schedule for all keys**, the rotation with some matches swapped. -/
theorem exists_plan (hne : ps ≠ []) (hkey : ∀ p ∈ ps, p.isKey = true) :
    ∃ ms, (plan ps).result = .ok ms ∧ Turned (rotation ps) ms := by
  rw [result_plan]
  split
  · exact ⟨rotation ps, rfl, Turned.refl _⟩
  · have hcounted : (rotation ps).mapM Row.counted = .ok (rotation ps) := mapM_counted fun m hm =>
      ⟨hkey _ (mem_of_mem_rotation hne m hm).1, hkey _ (mem_of_mem_rotation hne m hm).2⟩
    rw [hcounted]
    exact ⟨_, rfl, Balance.turned_repaired _ _⟩

end Circle

/-! ## 3. Schedules -/

namespace Planner

variable {s : Settings} {ps : List Value}

/-- **Whatever the circle has made can be put in order**: it comes turn by turn then, with some
matches the other way round. -/
theorem exists_sequenced (hne : ps ≠ []) (hkey : ∀ p ∈ ps, p.isKey = true) {ms : List Fixture}
    (hturned : Turned (Circle.rotation ps) ms) (prefersApart shortens : Bool) :
    ∃ (ns : List Fixture) (ts : List Value), (Sequencer.sequence
        (Sequencer.create ps (.ofFixtures ms) prefersApart shortens)).1.result
          = .ok (ts.flatMap (Schedule.ofTurn ns)) ∧
      Turned ms ns ∧ ts.Perm (Schedule.turns ns) ∧ ∀ m ∈ ns, equals m.turn m.turn = true := by
  have hknows : Sequencer.Knows ps (Circle.rotation ps) :=
    Sequencer.Knows.of_mem hkey (Circle.mem_of_mem_rotation hne)
  have hturn := hturned.forall_turn (P := fun t => ∃ k : Nat, t = .int k)
    Circle.exists_turn_of_mem_rotation
  have hkeys : ∀ m ∈ ms, m.turn.isKey = true := fun m hm => by
    obtain ⟨k, hk⟩ := hturn m hm
    exact hk ▸ Value.isKey_int k
  obtain ⟨ns, ts, _, ⟨hresult, -⟩, hturned', -, hperm, -⟩ :=
    Sequencer.exists_sequence (hknows.turned hturned) hkeys prefersApart shortens
  refine ⟨ns, ts, hresult, hturned', hturned'.turns_eq ▸ hperm, fun m hm => ?_⟩
  obtain ⟨k, hk⟩ := hturned'.forall_turn (P := fun t => ∃ k : Nat, t = .int k) hturn m hm
  rw [hk, Value.equals_int, BEq.rfl]

/-- The circle is put in order if it is in range, and left as it is otherwise.  Either way it is the
rotation with some matches the other way round and in another order. -/
theorem exists_circled (hne : ps ≠ []) (hkey : ∀ p ∈ ps, p.isKey = true)
    (hrange : ∃ b, isWithin s.sequencedFrom s.sequencedTo ps.length = .ok b) :
    ∃ ms ns, (circled s ps).result = .ok ms ∧ Turned (Circle.rotation ps) ns ∧ ms.Perm ns := by
  obtain ⟨ms, hms, hturned⟩ := Circle.exists_plan hne hkey
  obtain ⟨within, hwithin⟩ := hrange
  unfold circled
  simp only [Outcome.bind_eq_ok]
  cases within with
  | false => exact ⟨ms, ms, ⟨ms, hms, false, hwithin, rfl⟩, hturned, List.Perm.refl ms⟩
  | true =>
    obtain ⟨os, ts, hresult, hturned', hperm, hself⟩ :=
      exists_sequenced hne hkey hturned s.prefersApart.isOn s.shortensStreaks.isOn
    exact ⟨_, os, ⟨ms, hms, true, hwithin, hresult⟩, hturned.trans hturned',
      Schedule.perm_of_equal_turns hperm hself⟩

/-- **A schedule comes about**, whichever way the settings choose. -/
theorem exists_schedule (hne : ps ≠ []) (hkey : ∀ p ∈ ps, p.isKey = true)
    (hrange : ∃ b, isWithin s.sequencedFrom s.sequencedTo ps.length = .ok b) :
    ∃ ms, (schedule s ps).result = .ok ms := by
  obtain ⟨ms, -, hcircled, -⟩ := exists_circled hne hkey hrange
  rw [result_schedule]
  split
  · split
    · rename_i ms _
      exact ⟨ms, rfl⟩
    · exact ⟨ms, hcircled⟩
  · exact ⟨ms, hcircled⟩

/-! ## 4. Drafts and legs -/

variable {p : Planner}

/-- **A draft** takes enough participants, a schedule, and referees for its matches as they are
numbered. -/
theorem draft_eq_ok_iff {rule : RefereeRule} {d : Draft} :
    (draft p rule).result = .ok d ↔
      (requireCount rule p.participants.length).result = .ok () ∧
        ∃ ms, (schedule p.settings p.participants).result = .ok ms ∧ ∃ vs r,
          Action.Runs (Rota.assignAll (Schedule.fixtures (renumbered ms)))
            ⟨some rule, p.participants, []⟩ vs r ∧ d = (renumbered ms).zip vs := by
  unfold draft
  simp only [Outcome.bind_eq_ok]
  constructor
  · rintro ⟨_, hcount, _, -, ms, hms, rota, hrota, vs, hvs, h⟩
    cases hrota
    cases h
    exact ⟨hcount, ms, hms, vs, _, ⟨hvs, rfl⟩, rfl⟩
  · rintro ⟨hcount, ms, hms, vs, r, ⟨hvs, -⟩, rfl⟩
    exact ⟨(), hcount, (), rfl, ms, hms, _, rfl, vs, hvs, rfl⟩

/-- **A leg** is the half that is asked for of a draft under the rule that is asked for. -/
theorem leg_eq_ok_iff {rule half : Value} {leg : Leg} :
    (p.leg rule half).result = .ok leg ↔ ∃ r, (p.ruleFor rule).result = .ok r ∧
      ∃ h, (Half.read half).result = .ok h ∧ ∃ d, (draft p r).result = .ok d ∧
        leg = legOf r d h := by
  unfold Planner.leg
  simp only [Outcome.bind_eq_ok]
  constructor
  · rintro ⟨r, hr, h, hh, d, hd, hleg⟩
    cases hleg
    exact ⟨r, hr, h, hh, d, hd, rfl⟩
  · rintro ⟨r, hr, h, hh, d, hd, rfl⟩
    exact ⟨r, hr, h, hh, d, hd, rfl⟩

/-- Three participants are enough under every rule. -/
theorem requireCount_of_three {n : Nat} (h3 : 3 ≤ n) (rule : RefereeRule) :
    (requireCount rule n).result = .ok () := by
  unfold requireCount
  rw [if_neg (by simp only [Limits.smallestRound]; omega),
    if_neg (by simp only [Limits.smallestRoundWithReferee]; omega)]
  rfl

end Planner
end Matchday
