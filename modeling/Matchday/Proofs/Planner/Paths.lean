/-
# All ways to a schedule

A planner has three ways to a schedule: an ideal table, the circle, and the circle put in order by a
sequencer.  Whichever is taken, accepted participants without the bye get a round whose turns stand
together (`Fits`), so that numbering its turns makes it a single round.  It is balanced too
(`schedule_isBalanced`), unless the sequencer was at work and swapped matches to shorten streaks.
-/
import Matchday.Proofs.Circle.Counts
import Matchday.Proofs.Sequencer.Order
import Matchday.Proofs.Tables

namespace Matchday.Planner

variable {s : Settings} {ps : List Value} {ms : List Fixture}

/-- A round in blocks, with no more turns than a round of these participants takes. -/
structure Fits (ps : List Value) (ms : List Fixture) : Prop where
  round : IsRound ps ms
  inBlocks : Schedule.InBlocks (turnCount ps.length) ms

/-- The sequencer is at work: there is no table to be used, and the participants are in its range.
-/
def IsSequenced (s : Settings) (n : Nat) : Prop :=
  (s.usesIdeal.isOn = true → Ideal.table? n = none) ∧
    isWithin s.sequencedFrom s.sequencedTo n = .ok true

/-! ## 1. Schedules of places -/

/-- A single round of places fits the participants who take them. -/
theorem fits_taken (hd : AllDifferent ps) {first : Nat} {places : List (Match Nat Nat)}
    (h : IsSingleRound (List.range ps.length) first places) :
    Fits ps (Schedule.fixtures (Schedule.taken ps places)) :=
  ⟨(Circle.taken_isSingleRound hd h).round.fixtures, (Circle.taken_isSingleRound hd h).inBlocks⟩

/-- A sequencer of a schedule of places knows all players. -/
theorem knows_taken (hd : AllDifferent ps) (hkey : ∀ p ∈ ps, p.isKey = true) {first : Nat}
    {places : List (Match Nat Nat)} (h : IsSingleRound (List.range ps.length) first places) :
    Sequencer.Knows ps (Schedule.fixtures (Schedule.taken ps places)) :=
  Sequencer.Knows.of_mem hkey (Circle.mem_of_mem_taken hd h)

/-! ## 2. The circle -/

/-- **Putting turns in order keeps a round in blocks**, and without swaps it keeps the balance. -/
theorem sequenced_fits (hfits : Fits ps ms) (hknows : Sequencer.Knows ps ms)
    (hturn : ∀ m ∈ ms, m.turn.isKey = true) (prefersApart shortens : Bool) :
    ∃ ns, (Sequencer.sequence (Sequencer.create ps (.ofFixtures ms) prefersApart shortens)).1.result
        = .ok ns ∧ Fits ps ns ∧ (shortens = false → IsBalanced ps ms → IsBalanced ps ns) := by
  obtain ⟨os, ts, _, ⟨hresult, -⟩, hturned, hsame, hperm, -⟩ :=
    Sequencer.exists_sequence hknows hturn prefersApart shortens
  have hd := Schedule.allDifferent_of_perm hperm
  have hturns : Schedule.turns os = Schedule.turns ms := by
    rw [Schedule.turns, hturned.map_turn, Schedule.turns]
  have horder := Schedule.perm_of_equal_turns (hturns ▸ hperm)
    (hturned.forall_turn (P := fun t => equals t t = true) hfits.inBlocks.equals_self)
  have hcount : ts.length ≤ turnCount ps.length := by
    rw [hperm.length_eq]
    exact hfits.inBlocks.length_turns_le
  refine ⟨_, hresult, ⟨(hfits.round.turned hturned).perm horder,
    (Schedule.inBlocks_turnByTurn hd os).mono hcount⟩, fun hoff hb => ?_⟩
  rw [hsame hoff] at horder ⊢
  exact hb.perm horder

/-- **The circle fits, in order or not.** -/
theorem circled_fits (h2 : 2 ≤ ps.length) (hd : AllDifferent ps) (hbye : .bye ∉ ps)
    (hkey : ∀ p ∈ ps, p.isKey = true) (h : (circled s ps).result = .ok ms) :
    Fits ps ms ∧ ((isWithin s.sequencedFrom s.sequencedTo ps.length = .ok true →
      s.shortensStreaks.isOn = false) → IsBalanced ps ms) := by
  have hplaces := Circle.places_isSingleRound h2
  have hfits := fits_taken hd hplaces
  have hbalanced := Circle.taken_isBalanced hd hplaces (Circle.places_isBalanced h2)
  unfold circled at h
  rw [Outcome.result_bind, Circle.plan_eq_places h2 hd hbye fun _ => hkey] at h
  obtain ⟨within, hwithin, h⟩ := Outcome.bind_eq_ok.mp h
  have hwithin : isWithin s.sequencedFrom s.sequencedTo ps.length = .ok within := hwithin
  cases within with
  | false =>
    cases h
    exact ⟨hfits, fun _ => hbalanced⟩
  | true =>
    obtain ⟨ns, hns, hfits', hkept⟩ := sequenced_fits hfits (knows_taken hd hkey hplaces)
      (fun m hm => by obtain ⟨n, -, rfl⟩ := List.mem_map.mp hm; exact Value.isKey_int n.turn)
      s.prefersApart.isOn s.shortensStreaks.isOn
    cases hns.symm.trans h
    exact ⟨hfits', fun hoff => hkept (hoff hwithin) hbalanced⟩

/-! ## 3. Whichever way -/

/-- The result of a schedule: the table where there is one to be used, and else the circle. -/
theorem result_schedule (s : Settings) (ps : List Value) :
    (schedule s ps).result =
      if s.usesIdeal.isOn then
        match Ideal.schedule? ps with
        | some ms => .ok ms
        | none => (circled s ps).result
      else (circled s ps).result := by
  unfold schedule Ideal.plan
  split
  · cases Ideal.schedule? ps with
    | some ms => rfl
    | none => exact Outcome.result_orElseOn_reject rfl _
  · rfl

/-- **Whichever way a schedule comes about, it fits**, and it is balanced unless a sequencer swapped
matches. -/
theorem schedule_fits (h2 : 2 ≤ ps.length) (hd : AllDifferent ps) (hbye : .bye ∉ ps)
    (hkey : ∀ p ∈ ps, p.isKey = true) (h : (schedule s ps).result = .ok ms) :
    Fits ps ms ∧ (¬ (IsSequenced s ps.length ∧ s.shortensStreaks.isOn = true) →
      IsBalanced ps ms) := by
  rw [result_schedule] at h
  -- without a table the circle is used, and the sequencer is at work in its range
  have hcircled : (circled s ps).result = .ok ms →
      (s.usesIdeal.isOn = true → Ideal.table? ps.length = none) → Fits ps ms ∧
        (¬ (IsSequenced s ps.length ∧ s.shortensStreaks.isOn = true) → IsBalanced ps ms) := by
    intro hms hnone
    obtain ⟨hfits, hbalanced⟩ := circled_fits h2 hd hbye hkey hms
    refine ⟨hfits, fun hnot => hbalanced fun hwithin => ?_⟩
    exact Bool.eq_false_iff.mpr fun hon => hnot ⟨⟨hnone, hwithin⟩, hon⟩
  split at h
  · cases htable : Ideal.tables.lookup ps.length with
    | some turns =>
      obtain ⟨-, hchecked⟩ := Ideal.tables_checked _ (Ideal.mem_of_lookup htable)
      have hround := hchecked.isSingleRound h2
      rw [Ideal.schedule?_eq htable] at h
      cases h
      refine ⟨fits_taken hd hround, fun _ => ?_⟩
      exact Circle.taken_isBalanced hd hround (hchecked.isBalanced h2)
    | none =>
      rw [Ideal.schedule?_eq_none htable] at h
      refine hcircled h fun _ => ?_
      rw [Ideal.table?, htable]
      rfl
  · rename_i hoff
    exact hcircled h fun hon => absurd hon hoff

end Matchday.Planner
