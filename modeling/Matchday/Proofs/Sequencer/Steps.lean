/-
# The steps of a run

When a step succeeds and has not found everything placed, it has done three things (`Adds`): a turn
was picked to follow the last one, its matches were swapped where that was asked for, and it was
placed behind the others.  This is all that later arguments need to know of the program
(`runs_placeNext`).  So what every such step keeps, a run keeps however many turns it places
(`keeps_placeAll`), and what also holds when the first turn is placed holds of the order that is
answered (`keeps_sequence`).  With known players there is such an order (`exists_kept`).
-/
import Matchday.Proofs.Sequencer.Sessions

namespace Matchday.Sequencer

/-! ## 1. One step -/

/-- **A turn is added**: it is picked to follow the last one, its matches are swapped where that is
asked for, and it is placed behind the others. -/
structure Adds (t : Value) (s s' : Sequencer) : Prop where
  picked : ∃ last, s.placed.getLast? = some last ∧ s.nextTurn? last = .ok (some t)
  asked : s.SwapsAsked t s.working.fixtures s'.working.fixtures
  placed : s'.placed = s.placed ++ [t]
  result : s'.result = s.result ++ Schedule.ofTurn s'.working.fixtures t
  prefersApart : s'.prefersApart = s.prefersApart

variable {ps : List Value} {ms : List Fixture} {s s' : Sequencer} {t : Value}

/-- The turn has not been placed before. -/
theorem Adds.not_placed (hkey : ∀ m ∈ ms, m.home.isKey = true ∧ m.guest.isKey = true)
    (hs : Underway ps ms s) (h : Adds t s s') : ∀ u ∈ s.placed, (t == u) = false := by
  obtain ⟨last, -, hpicked⟩ := h.picked
  exact (hs.of_picked hkey hpicked).2

/-- **Open turns stand as they were given.** -/
theorem Underway.ofTurn_open (h : Underway ps ms s) (hnew : ∀ u ∈ s.placed, (t == u) = false) :
    Schedule.ofTurn s.working.fixtures t = Schedule.ofTurn ms t := by
  refine h.turned.ofTurn_eq fun u hu => ?_
  obtain ⟨v, hv, huv⟩ := List.contains_iff_exists_mem_beq.mp hu
  rw [BEq.congr_left huv, BEq.comm]
  exact hnew v hv

/-- **A step that succeeds adds a turn**, or else there was nothing to place. -/
theorem runs_placeNext (h : Action.Runs placeNext s () s') : s' = s ∨ ∃ t, Adds t s s' := by
  obtain ⟨_, _, hstate, h⟩ := Action.runs_bind.mp h
  obtain ⟨rfl, rfl⟩ := Action.runs_state.mp hstate
  cases hlast : s.placed.getLast? with
  | none =>
    rw [hlast] at h
    exact Or.inl (Action.runs_pure.mp h).2.symm
  | some last =>
    rw [hlast] at h
    obtain ⟨answer, _, hask, h⟩ := Action.runs_bind.mp h
    obtain ⟨hanswer, rfl⟩ := Action.runs_lift.mp hask
    cases answer with
    | none => exact Or.inl (Action.runs_pure.mp h).2.symm
    | some t =>
      right
      -- the turn is placed in whatever state the swapping leaves
      have hplace : ∀ {ns : List Fixture}, s.SwapsAsked t s.working.fixtures ns →
          Action.Runs (do
            Outcome.writeAll [placingRecord t last]
            Action.change (place t)) { s with working := { s.working with fixtures := ns } } () s' →
          ∃ t, Adds t s s' := by
        intro ns hasked hrest
        obtain ⟨_, _, hwrite, hrest⟩ := Action.runs_bind.mp hrest
        obtain ⟨-, rfl⟩ := Action.runs_lift.mp hwrite
        obtain rfl := Action.runs_change.mp hrest
        exact ⟨t, ⟨last, hlast, hanswer⟩, hasked, rfl, rfl, rfl⟩
      dsimp only at h
      split at h
      · obtain ⟨_, _, ⟨-, rfl⟩, h⟩ := Action.runs_bind.mp h
        obtain ⟨ns, hafter, hasked⟩ := exists_asked_shorten t s
        rw [hafter] at h
        exact hplace hasked h
      · exact hplace (SwapsAsked.refl s t _) h

/-! ## 2. Runs -/

section Keeps

variable {I : Sequencer → Prop} (hkey : ∀ m ∈ ms, m.home.isKey = true ∧ m.guest.isKey = true)
  (hstep : ∀ {t s s'}, Underway ps ms s → I s → Adds t s s' → I s')
include hkey hstep

/-- **What is kept whenever a turn is added is kept by a run.** -/
theorem keeps_placeAll (k : Nat) (hs : Underway ps ms s) (hI : I s)
    (hruns : Action.Runs (placeAll k) s () s') : I s' := by
  induction k generalizing s with
  | zero =>
    obtain ⟨-, rfl⟩ := Action.runs_pure.mp hruns
    exact hI
  | succ k ih =>
    obtain ⟨_, s₁, hfirst, hrest⟩ := Action.runs_bind.mp hruns
    refine ih ((ends_placeNext hkey hs).of_runs hfirst) ?_ hrest
    rcases runs_placeNext hfirst with rfl | ⟨t, hadds⟩
    · exact hI
    · exact hstep hs hI hadds

end Keeps

/-- **An order is empty, or else the first turn is placed and then the others.** -/
theorem runs_sequence {ns : List Fixture} (h : Action.Runs sequence s ns s') :
    ns = s'.result ∧ (s' = s.restarted ∨ ∃ t ts, turnsOf s.source = .ok (t :: ts) ∧
      Action.Runs (placeAll ts.length) (place t s.restarted) () s') := by
  obtain ⟨_, _, hchange, h⟩ := Action.runs_bind.mp h
  obtain rfl := Action.runs_change.mp hchange
  obtain ⟨_, _, hstate, h⟩ := Action.runs_bind.mp h
  obtain ⟨rfl, rfl⟩ := Action.runs_state.mp hstate
  obtain ⟨turns, _, hread, h⟩ := Action.runs_bind.mp h
  obtain ⟨hturns, rfl⟩ := Action.runs_lift.mp hread
  cases turns with
  | nil =>
    obtain ⟨rfl, rfl⟩ := Action.runs_pure.mp h
    exact ⟨rfl, Or.inl rfl⟩
  | cons t ts =>
    obtain ⟨_, _, hchange, h⟩ := Action.runs_bind.mp h
    obtain rfl := Action.runs_change.mp hchange
    obtain ⟨_, s₁, hruns, h⟩ := Action.runs_bind.mp h
    obtain ⟨_, _, hstate, h⟩ := Action.runs_bind.mp h
    obtain ⟨rfl, rfl⟩ := Action.runs_state.mp hstate
    obtain ⟨_, _, hwrite, h⟩ := Action.runs_bind.mp h
    obtain ⟨-, rfl⟩ := Action.runs_lift.mp hwrite
    obtain ⟨rfl, rfl⟩ := Action.runs_pure.mp h
    exact ⟨rfl, Or.inr ⟨t, ts, hturns, hruns⟩⟩

/-- **What holds from the first turn on, and whenever a turn is added, holds of the order.** -/
theorem keeps_sequence {I : Sequencer → Prop} {ns : List Fixture}
    (hkeys : ∀ m ∈ ms, m.turn.isKey = true ∧ m.home.isKey = true ∧ m.guest.isKey = true)
    (hparticipants : s.participants = ps) (hsource : s.source = .ofFixtures ms)
    (hnone : I s.restarted) (hfirst : ∀ t ∈ Schedule.turns ms, I (place t s.restarted))
    (hstep : ∀ {t s s'}, Underway ps ms s → I s → Adds t s s' → I s')
    (hruns : Action.Runs sequence s ns s') : I s' := by
  obtain ⟨-, rfl | ⟨t, ts, hturns, hruns⟩⟩ := runs_sequence hruns
  · exact hnone
  · rw [hsource, turnsOf_eq fun m hm => (hkeys m hm).1] at hturns
    have ht : t ∈ Schedule.turns ms := by
      rw [Except.ok.inj hturns]
      exact List.mem_cons_self
    exact keeps_placeAll (fun m hm => (hkeys m hm).2) hstep ts.length
      (underway_first hparticipants hsource ht) (hfirst t ht) hruns

/-- **An order is found, and what is kept on the way holds of it**, if all entries serve as keys and
all players are known. -/
theorem exists_kept {I : Sequencer → Prop} (hsource : s.source = .ofFixtures ms)
    (hkeys : ∀ m ∈ ms, m.turn.isKey = true ∧ m.home.isKey = true ∧ m.guest.isKey = true)
    (hparticipants : ∀ p ∈ s.participants, p.isKey = true)
    (hknown : ∀ m ∈ ms, s.participants.contains m.home = true ∧
      s.participants.contains m.guest = true)
    (hnone : I s.restarted) (hfirst : ∀ t ∈ Schedule.turns ms, I (place t s.restarted))
    (hstep : ∀ {t s₁ s₂}, Underway s.participants ms s₁ → I s₁ → Adds t s₁ s₂ → I s₂) :
    ∃ s', Action.Runs sequence s s'.result s' ∧ s'.placed.Perm (Schedule.turns ms) ∧
      Turned (s'.placed.flatMap (Schedule.ofTurn ms)) s'.result ∧ I s' := by
  have hknows : Knows s.participants ms :=
    ⟨hparticipants, fun m hm => (hkeys m hm).2.1, fun m hm => (hkeys m hm).2.2,
      fun m hm => (hknown m hm).1, fun m hm => (hknown m hm).2⟩
  obtain ⟨s', hruns, hkeeps, hperm, -⟩ :=
    exists_order hknows (fun m hm => (hkeys m hm).1) s.prefersApart s.shortensStreaks
  have hruns : Action.Runs sequence s s'.result s' := by
    rw [← hsource] at hruns
    exact hruns
  refine ⟨s', hruns, hperm, ?_, keeps_sequence hkeys rfl hsource hnone hfirst hstep hruns⟩
  rw [hkeeps.result]
  exact hkeeps.turned.turnByTurn s'.placed

end Matchday.Sequencer
