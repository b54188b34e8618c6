/-
# How many matches everybody gets

Everybody should play one match per leg less than there are participants, and a planner says so in
advance (`Planner.matchesPerLeg`).  It keeps its word whatever the participants are, the bye apart.
An ideal table goes by position and treats the bye like anybody else.  The circle passes over the
bye unless it comes first, and a sequencer only turns matches and reorders turns.  So a schedule is
a round of all participants, or of all but the bye (`schedule_isRound`), and a leg has the matches
of its schedule (`attendance`).

The bye is accepted as a participant, so there are rounds in which it gets no match, and everybody
else one match less than announced (`bye_gets_no_match`).
-/
import Matchday.Proofs.Circle.Byes
import Matchday.Proofs.Planner.Legs
import Matchday.Proofs.Planner.Success

namespace Matchday.Planner

variable {s : Settings} {ps : List Value} {ms : List Fixture}

/-! ## 1. Who is in the schedule -/

/-- The circle is used, and the bye comes second or later. -/
def LosesBye (s : Settings) (ps : List Value) : Prop :=
  (s.usesIdeal.isOn = true → Ideal.table? ps.length = none) ∧ .bye ∈ ps.tail

/-- **The circle is the rotation**, with some matches the other way round and in another order. -/
theorem circled_rearranged (hne : ps ≠ []) (hkey : ∀ p ∈ ps, p.isKey = true)
    (h : (circled s ps).result = .ok ms) :
    ∃ ns, Turned (Circle.rotation ps) ns ∧ ms.Perm ns := by
  have hrange : ∃ b, isWithin s.sequencedFrom s.sequencedTo ps.length = .ok b := by
    have h' := h
    unfold circled at h'
    obtain ⟨_, -, h'⟩ := Outcome.bind_eq_ok.mp h'
    obtain ⟨within, hwithin, -⟩ := Outcome.bind_eq_ok.mp h'
    exact ⟨within, hwithin⟩
  obtain ⟨ms', ns, hms', hturned, hperm⟩ := exists_circled hne hkey hrange
  cases hms'.symm.trans h
  exact ⟨ns, hturned, hperm⟩

/-- **A schedule is a round of all participants**, or of all but the bye. -/
theorem schedule_isRound (h2 : 2 ≤ ps.length) (hd : AllDifferent ps)
    (hkey : ∀ p ∈ ps, p.isKey = true) (h : (schedule s ps).result = .ok ms) :
    (¬ LosesBye s ps → IsRound ps ms) ∧ (LosesBye s ps → IsRound (Circle.playing ps) ms) := by
  have hne : ps ≠ [] := List.ne_nil_of_length_pos (by omega)
  have hcircled : (circled s ps).result = .ok ms → IsRound (Circle.playing ps) ms := by
    intro hms
    obtain ⟨ns, hturned, hperm⟩ := circled_rearranged hne hkey hms
    exact ((Circle.rotation_isRound h2 hd).turned hturned).perm hperm
  have heverybody : (circled s ps).result = .ok ms →
      (s.usesIdeal.isOn = true → Ideal.table? ps.length = none) → ¬ LosesBye s ps →
        IsRound ps ms := by
    intro hms hnone hnot
    have hround := hcircled hms
    rwa [Circle.playing_eq fun hbye => hnot ⟨hnone, hbye⟩] at hround
  rw [result_schedule] at h
  split at h
  · rename_i hon
    cases htable : Ideal.tables.lookup ps.length with
    | some turns =>
      obtain ⟨-, hchecked⟩ := Ideal.tables_checked _ (Ideal.mem_of_lookup htable)
      rw [Ideal.schedule?_eq htable] at h
      cases h
      refine ⟨fun _ => (fits_taken hd (hchecked.isSingleRound h2)).round, fun hloses => ?_⟩
      have hnone := hloses.1 hon
      rw [Ideal.table?, htable] at hnone
      cases hnone
    | none =>
      rw [Ideal.schedule?_eq_none htable] at h
      refine ⟨heverybody h fun _ => ?_, fun _ => hcircled h⟩
      rw [Ideal.table?, htable]
      rfl
  · rename_i hoff
    exact ⟨heverybody h fun hon => absurd hon hoff, fun _ => hcircled h⟩

/-! ## 2. Who is in a leg -/

theorem countP_involves_fixtures (a : Value) (ms : List (Match Nat Value)) :
    (Schedule.fixtures ms).countP (Match.involves a) = ms.countP (Match.involves a) := by
  rw [Schedule.fixtures, List.countP_map]
  rfl

/-- New numbers and the other way round make no difference to who takes part. -/
theorem countP_involves_renumbered (a : Value) (ms : List Fixture) :
    (renumbered ms).countP (Match.involves a) = ms.countP (Match.involves a) := by
  rw [renumbered_eq, List.countP_map]
  rfl

theorem countP_involves_mirrored (a : Value) (shift : Nat) (ms : List (Match Nat Value)) :
    (Schedule.mirrored shift ms).countP (Match.involves a) = ms.countP (Match.involves a) := by
  rw [Schedule.mirrored, List.countP_map]
  exact List.countP_congr fun m _ => by rw [Function.comp_apply, Match.involves, Bool.or_comm]; rfl

/-- **A leg has the matches of its schedule.** -/
theorem countP_leg {p : Planner} {rule half : Value} {leg : Leg}
    (h : (p.leg rule half).result = .ok leg) : 2 ≤ p.participants.length ∧
      ∃ ms, (schedule p.settings p.participants).result = .ok ms ∧ ∀ a,
        leg.countP (fun c => c.home == a || c.guest == a) = ms.countP (Match.involves a) := by
  obtain ⟨h2, ms, hms, hfirst, hmirrored⟩ := leg_ok h
  refine ⟨h2, ms, hms, fun a => ?_⟩
  have hleg : leg.countP (fun c => c.home == a || c.guest == a)
      = (leg.map Pairing.fixture).countP (Match.involves a) := by
    rw [List.countP_map]
    rfl
  obtain ⟨_, -, half', hhalf, -⟩ := leg_eq_ok_iff.mp h
  cases half' with
  | first => rw [hleg, hfirst hhalf, countP_involves_fixtures, countP_involves_renumbered]
  | mirrored =>
    rw [hleg, hmirrored hhalf, countP_involves_fixtures, countP_involves_mirrored,
      countP_involves_renumbered]

/-- Nobody else plays in a round. -/
theorem countP_involves_eq_zero {qs : List Value} (h : IsRound qs ms) {a : Value}
    (ha : ∀ q ∈ qs, (q == a) = false) : ms.countP (Match.involves a) = 0 := by
  refine List.countP_eq_zero.mpr fun m hm hinv => ?_
  rw [Match.involves, ha _ (h.home_mem m hm), ha _ (h.guest_mem m hm)] at hinv
  cases hinv

/-- **Everybody plays as many matches as announced**, except where the bye is a participant whom the
circle passes over: then it plays none and everybody else one less. -/
theorem attendance {p : Planner} {source : Source} {rule half : Value} {leg : Leg}
    (hset : (accept p.participantKind source).result = .ok p.participants)
    (hleg : (p.leg rule half).result = .ok leg) :
    (¬ LosesBye p.settings p.participants → ∀ a ∈ p.participants,
        leg.countP (fun c => c.home == a || c.guest == a) = p.matchesPerLeg) ∧
      (LosesBye p.settings p.participants →
        leg.countP (fun c => c.home == .bye || c.guest == .bye) = 0 ∧
        ∀ a ∈ p.participants, a ≠ .bye →
          leg.countP (fun c => c.home == a || c.guest == a) + 1 = p.matchesPerLeg) := by
  obtain ⟨-, -, -, hkey, hd⟩ := accept_eq_ok_iff.mp hset
  obtain ⟨h2, ms, hms, hcount⟩ := countP_leg hleg
  obtain ⟨hall, hlost⟩ := schedule_isRound h2 hd hkey hms
  simp only [hcount, matchesPerLeg]
  refine ⟨fun hnot a ha => ?_, fun hloses => ⟨?_, fun a ha hne => ?_⟩⟩
  · have hplays := (hall hnot).countP_involves hd ha
    omega
  · refine countP_involves_eq_zero (hlost hloses) fun q hq => ?_
    have hne := ((Circle.mem_playing_iff hd hloses.2).mp hq).2
    cases q <;> first | exact absurd rfl hne | rfl
  · have hround := hlost hloses
    have hplays := hround.countP_involves (hd.sublist (Circle.playing_sublist _))
      ((Circle.mem_playing_iff hd hloses.2).mpr ⟨ha, hne⟩)
    have hlen := Circle.length_playing hd hloses.2
    omega

/-- Of four participants the second is the bye, and the others play two matches each. -/
theorem attendance_four :
    ∃ leg, ((⟨.any, .any, .default, [.int 0, .bye, .none, .text ""]⟩ : Planner).leg
        (.rule .other) (.half .mirrored)).result = .ok leg ∧
      leg.countP (fun c => c.home == .bye || c.guest == .bye) = 0 ∧
      ∀ a ∈ [Value.int 0, .bye, .none, .text ""], a ≠ .bye →
        leg.countP (fun c => c.home == a || c.guest == a) + 1 = 3 := by
  have hset : (accept .any (.value (.list [.int 0, .bye, .none, .text ""]))).result
      = .ok [.int 0, .bye, .none, .text ""] := rfl
  obtain ⟨leg, hleg⟩ : ∃ leg,
      ((⟨.any, .any, .default, [.int 0, .bye, .none, .text ""]⟩ : Planner).leg
        (.rule .other) (.half .mirrored)).result = .ok leg := ⟨_, rfl⟩
  obtain ⟨-, hloses⟩ := attendance (p := ⟨.any, .any, .default, _⟩) hset hleg
  exact ⟨leg, hleg, hloses ⟨fun _ => rfl, by simp⟩⟩

/-- **The bye is accepted but gets no match**, and neither does its only opponent, although one is
announced for everybody. -/
theorem bye_gets_no_match :
    (accept .any (.value (.list [.int 1, .bye]))).result = .ok [.int 1, .bye] ∧
      (⟨.any, .any, .default, [.int 1, .bye]⟩ : Planner).matchesPerLeg = 1 ∧
      ∃ leg, ((⟨.any, .any, .default, [.int 1, .bye]⟩ : Planner).leg .none (.half .first)).result
          = .ok leg ∧
        ∀ a ∈ [Value.int 1, .bye], leg.countP (fun c => c.home == a || c.guest == a) = 0 :=
  ⟨rfl, rfl, [], rfl, fun _ _ => rfl⟩

end Matchday.Planner
