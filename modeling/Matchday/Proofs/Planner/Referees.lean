/-
# Referees of a round

Every match of a leg has the referee that the rule asks for (`legs_refereed`): nobody, the one at
home or the guest of that very leg, or another participant who does not play.  Three participants
are enough for that to succeed, whoever they are, and four of them are enough for nobody to be on
duty in two consecutive matches.

The mirrored leg has its referees from the first.  Another participant stays where he is, as he does
not play in the match whichever way round it is played; a referee who goes with a role is the new
holder of that role (`of_mem_legOf`).
-/
import Mathlib.Data.List.Chain
import Matchday.Proofs.Planner.Legs
import Matchday.Proofs.Planner.Success
import Matchday.Proofs.Rota.Duties

namespace Matchday.Planner

/-! ## 1. From drafts to legs -/

section Drafts

variable {rule : RefereeRule} {half : Half} {d : Draft} {c : Pairing}

/-- The parts of a pairing come from one match of the draft, the same way round or the other. -/
theorem of_mem_legOf (hc : c ∈ legOf rule d half) :
    ∃ x ∈ d, (c.home = x.1.home ∧ c.guest = x.1.guest ∧ c.referee = x.2) ∨
      (c.home = x.1.guest ∧ c.guest = x.1.home ∧ c.referee = mirroredReferee rule x.1 x.2) := by
  cases half with
  | first =>
    obtain ⟨x, hx, rfl⟩ := List.mem_map.mp hc
    exact ⟨x, hx, Or.inl ⟨rfl, rfl, rfl⟩⟩
  | mirrored =>
    obtain ⟨x, hx, rfl⟩ := List.mem_map.mp hc
    exact ⟨x, hx, Or.inr ⟨rfl, rfl, rfl⟩⟩

/-- **Under the first three rules the matches of a leg decide for themselves**, also those of the
mirrored one. -/
theorem referee_of_mem_legOf (hne : rule ≠ .other) (hd : ∀ x ∈ d, x.2 = Rota.refereeOf rule x.1)
    (hc : c ∈ legOf rule d half) : c.referee = Rota.refereeOf rule c.fixture := by
  obtain ⟨x, hx, ⟨hhome, hguest, hreferee⟩ | ⟨hhome, hguest, hreferee⟩⟩ := of_mem_legOf hc
  · rw [hreferee, hd x hx, Pairing.fixture, hhome, hguest]
    cases rule <;> rfl
  · rw [hreferee, hd x hx, Pairing.fixture, hhome, hguest]
    cases rule with
    | nobody | home | guest => rfl
    | other => exact absurd rfl hne

/-- Both legs have the referees of the draft under the fourth rule. -/
theorem map_referee_legOf (half : Half) (d : Draft) :
    (legOf .other d half).map (·.referee) = d.map (·.2) := by
  cases half with
  | first => exact List.map_map
  | mirrored => exact List.map_map

end Drafts

/-- A schedule and a run of the rota over its matches give the leg. -/
theorem leg_of_runs {p : Planner} {rule half : Value} {r : RefereeRule} {h : Half}
    {ms : List Fixture} {vs : List Value} {rota : Rota} (h3 : 3 ≤ p.participants.length)
    (hms : (schedule p.settings p.participants).result = .ok ms)
    (hrule : (p.ruleFor rule).result = .ok r) (hhalf : (Half.read half).result = .ok h)
    (hruns : Action.Runs (Rota.assignAll (Schedule.fixtures (renumbered ms)))
      ⟨some r, p.participants, []⟩ vs rota) :
    (p.leg rule half).result = .ok (legOf r ((renumbered ms).zip vs) h) :=
  leg_eq_ok_iff.mpr ⟨r, hrule, h, hhalf, _, draft_eq_ok_iff.mpr
    ⟨requireCount_of_three h3 r, ms, hms, vs, rota, hruns, rfl⟩, rfl⟩

/-! ## 2. Both legs -/

/-- **Every match of a leg has its referee.**  With three or more participants a leg is planned
under any rule, on the sole condition that the bounds of the sequencer have an order with whole
numbers.  Under the fourth rule the referee is a participant who is not equal to either player of the
match, and with four participants those of two consecutive matches are not equal; under the other
rules it is whoever has the role in the match of that leg, or nobody. -/
theorem legs_refereed {p : Planner} {source : Source} {rule half : Value} {r : RefereeRule}
    {h : Half} (hset : (accept p.participantKind source).result = .ok p.participants)
    (h3 : 3 ≤ p.participants.length) (hfrom : p.settings.sequencedFrom.ComparesWithWholes)
    (hto : p.settings.sequencedTo.ComparesWithWholes) (hrule : (p.ruleFor rule).result = .ok r)
    (hhalf : (Half.read half).result = .ok h) :
    ∃ leg, (p.leg rule half).result = .ok leg ∧
      (r = .other →
        (∀ c ∈ leg, c.referee ∈ p.participants ∧ equals c.referee c.home = false ∧
          equals c.referee c.guest = false) ∧
        (4 ≤ p.participants.length →
          leg.IsChain fun c c' => equals c'.referee c.referee = false)) ∧
      (r = .home → ∀ c ∈ leg, c.referee = c.home) ∧
      (r = .guest → ∀ c ∈ leg, c.referee = c.guest) ∧
      (r = .nobody → ∀ c ∈ leg, c.referee = .none) := by
  obtain ⟨-, -, -, hkey, hd⟩ := accept_eq_ok_iff.mp hset
  have hne : p.participants ≠ [] := fun hnil => by simp [hnil] at h3
  obtain ⟨ms, hms⟩ := exists_schedule hne hkey (exists_isWithin hfrom hto _)
  by_cases hother : r = .other
  · subst hother
    obtain ⟨vs, hvs⟩ := Rota.exists_duties hd h3 [] (Schedule.fixtures (renumbered ms))
    have hleg := leg_of_runs h3 hms hrule hhalf (Rota.runs_assignAll_other.mpr ⟨hvs, rfl⟩)
    refine ⟨_, hleg, fun _ => ⟨?_, fun h4 => ?_⟩, nofun, nofun, nofun⟩
    · rw [Schedule.fixtures, Rota.duties_map_turn] at hvs
      intro c hc
      obtain ⟨x, hx, hparts⟩ := of_mem_legOf hc
      obtain ⟨hmem, hhome, hguest⟩ :=
        Rota.mem_free.mp (List.forall₂_zip (Rota.forall₂_duties hvs) hx)
      rcases hparts with ⟨hh, hg, hr⟩ | ⟨hh, hg, hr⟩
      · rw [hh, hg, hr]
        exact ⟨hmem, hhome, hguest⟩
      · rw [hh, hg, hr]
        exact ⟨hmem, hguest, hhome⟩
    · have hchain := (Rota.isChain_duties hd h4 hvs).tail
      have hlen := (Rota.forall₂_duties hvs).length_eq
      rw [Schedule.fixtures, List.length_map] at hlen
      rw [List.tail_cons, ← List.map_snd_zip (Nat.le_of_eq hlen.symm), ← map_referee_legOf h]
        at hchain
      exact (List.isChain_map _).mp hchain
  · have hruns : Action.Runs (Rota.assignAll (Schedule.fixtures (renumbered ms)))
        ⟨some r, p.participants, []⟩ _ _ :=
      (Rota.runs_assignAll_of_ne rfl hother).mpr ⟨rfl, rfl⟩
    have hleg := leg_of_runs h3 hms hrule hhalf hruns
    have hdecided : ∀ x ∈ (renumbered ms).zip
        ((Schedule.fixtures (renumbered ms)).map (Rota.refereeOf r)),
        x.2 = Rota.refereeOf r x.1 := by
      rw [Schedule.fixtures, List.map_map]
      refine fun x hx => List.forall₂_zip (R := fun m v => v = Rota.refereeOf r m) ?_ hx
      exact List.forall₂_map_right_iff.mpr (List.forall₂_same.mpr fun m _ => by cases r <;> rfl)
    refine ⟨_, hleg, fun h => absurd h hother, ?_, ?_, ?_⟩ <;> rintro rfl c hc
    · exact referee_of_mem_legOf hother hdecided hc
    · exact referee_of_mem_legOf hother hdecided hc
    · exact referee_of_mem_legOf hother hdecided hc

/-- Four participants, the bye and nothing among them, are enough for a mirrored leg in which nobody
is on duty twice in a row. -/
theorem legs_refereed_four :
    let leg : Leg := [⟨.int 4, .none, .tuple [.int 2], .text "Ann"⟩,
      ⟨.int 5, .tuple [.int 2], .text "Ann", .bye⟩, ⟨.int 6, .text "Ann", .none, .tuple [.int 2]⟩]
    ((⟨.any, .any, .default, [.text "Ann", .bye, .none, .tuple [.int 2]]⟩ : Planner).leg
        (.rule .other) (.half .mirrored)).result = .ok leg ∧
      (∀ c ∈ leg, c.referee ∈ [Value.text "Ann", .bye, .none, .tuple [.int 2]] ∧
        equals c.referee c.home = false ∧ equals c.referee c.guest = false) ∧
      leg.IsChain fun c c' => equals c'.referee c.referee = false := by
  intro leg
  have hset : (accept .any (.value (.list [.text "Ann", .bye, .none, .tuple [.int 2]]))).result
      = .ok [.text "Ann", .bye, .none, .tuple [.int 2]] := rfl
  have hrule : (Planner.ruleFor ⟨.any, .any, .default, [.text "Ann", .bye, .none, .tuple [.int 2]]⟩
      (.rule .other)).result = .ok .other := rfl
  have hhalf : (Half.read (.half .mirrored)).result = .ok .mirrored := rfl
  obtain ⟨planned, hplanned, hother, -⟩ := legs_refereed hset (by decide)
    (Value.comparesWithWholes_int _) (Value.comparesWithWholes_int _) hrule hhalf
  obtain rfl : planned = leg := (Except.ok.inj hplanned).symm
  exact ⟨hplanned, (hother rfl).1, (hother rfl).2 (by decide)⟩

end Matchday.Planner
