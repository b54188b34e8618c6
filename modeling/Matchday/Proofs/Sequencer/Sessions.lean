/-
# What a sequencer shows

Between requests a sequencer shows its working copy, the turns it has placed, and their matches.  Any
request may fail half way, and a turn may be swapped by hand in between, so these need not be those
of a finished order.  Two things can be relied on all the same.

The working copy is empty or it is the schedule, some matches played the other way round
(`Standing`).  Every request keeps to that (`standing_answer`), so a session does.

After a request for the order, also one that failed, what is shown belongs together (`Consistent`):
different turns of the schedule are placed, the result is their matches in the working copy, and no
match has been swapped unless its turn is placed or was being placed.  Placing a turn keeps to that,
and between keys a step can fail only while it swaps matches of the turn that was picked
(`ends_placeNext`).  So a failure of the whole is such a failure of one step, in a state that was
reached from the start (`ends_placeAll`, `ends_sequence`).
-/
import Matchday.Proofs.Sequencer.Order
import Matchday.Sequencer.Session

namespace Matchday.Sequencer

/-! ## 1. What belongs together -/

/-- **What a sequencer shows belongs together**: turns of its schedule are placed, no two of them
the same, the result is their matches as they are now, and matches have been swapped in the turns
in question only. -/
structure Consistent (ps : List Value) (ms : List Fixture) (swapped : Value → Prop)
    (s : Sequencer) : Prop where
  participants : s.participants = ps
  source : s.source = .ofFixtures ms
  read : s.working.unread = []
  turned : TurnedIn swapped ms s.working.fixtures
  different : AllDifferent s.placed
  ofSchedule : ∀ t ∈ s.placed, t ∈ Schedule.turns ms
  result : s.result = s.placed.flatMap (Schedule.ofTurn s.working.fixtures)

/-- What belongs together between two steps: matches have been swapped in the turns placed only. -/
def Underway (ps : List Value) (ms : List Fixture) (s : Sequencer) : Prop :=
  Consistent ps ms (fun u => s.placed.contains u = true) s

variable {ps : List Value} {ms : List Fixture} {s s' : Sequencer} {t : Value}

/-- Before the first turn is placed nothing has been swapped. -/
theorem underway_restarted (hparticipants : s.participants = ps)
    (hsource : s.source = .ofFixtures ms) : Underway ps ms s.restarted where
  participants := hparticipants
  source := hsource
  read := congrArg Sheet.unread hsource
  turned := by
    have hfixtures : s.restarted.working.fixtures = ms := congrArg Sheet.fixtures hsource
    rw [hfixtures]
    exact TurnedIn.refl _ ms
  different := List.Pairwise.nil
  ofSchedule := fun _ hu => absurd hu List.not_mem_nil
  result := rfl

/-- Swapping matches of a turn that is not placed does not touch the result. -/
theorem Consistent.swapped {swapped : Value → Prop} (h : Consistent ps ms swapped s)
    {ns : List Fixture} (hturned : TurnedIn (· == t) s.working.fixtures ns)
    (hnew : ∀ u ∈ s.placed, (t == u) = false) :
    Consistent ps ms (fun u => swapped u ∨ (u == t) = true)
      { s with working := { s.working with fixtures := ns } } where
  participants := h.participants
  source := h.source
  read := h.read
  turned := (h.turned.mono fun _ => Or.inl).trans (hturned.mono fun _ => Or.inr)
  different := h.different
  ofSchedule := h.ofSchedule
  result := h.result.trans (hturned.flatMap_ofTurn hnew).symm

/-- The turn being placed counts among those placed once it is. -/
theorem Consistent.place
    (h : Consistent ps ms (fun u => s.placed.contains u = true ∨ (u == t) = true) s)
    (ht : t ∈ Schedule.turns ms) (hnew : ∀ u ∈ s.placed, (t == u) = false) :
    Underway ps ms (place t s) where
  participants := h.participants
  source := h.source
  read := h.read
  turned := by
    refine h.turned.mono fun u hu => ?_
    have hplaced : (Sequencer.place t s).placed = s.placed ++ [t] := rfl
    rw [hplaced, List.contains_iff_exists_mem_beq]
    rcases hu with hu | hu
    · obtain ⟨v, hv, huv⟩ := List.contains_iff_exists_mem_beq.mp hu
      exact ⟨v, List.mem_append_left _ hv, huv⟩
    · exact ⟨t, List.mem_append_right _ (List.mem_singleton_self t), hu⟩
  different := h.different.concat hnew
  ofSchedule := by
    intro u hu
    rcases List.mem_append.mp hu with hu | hu
    · exact h.ofSchedule u hu
    · rw [List.mem_singleton.mp hu]
      exact ht
  result := by
    rw [Sequencer.place, h.result, List.flatMap_append, List.flatMap_singleton]

/-- A sequencer that has started again may place any turn of its schedule. -/
theorem underway_first (hparticipants : s.participants = ps) (hsource : s.source = .ofFixtures ms)
    (ht : t ∈ Schedule.turns ms) : Underway ps ms (place t s.restarted) := by
  have hrestarted := underway_restarted hparticipants hsource
  refine Consistent.place { hrestarted with turned := hrestarted.turned.mono fun _ => Or.inl } ht ?_
  exact fun u hu => absurd hu List.not_mem_nil

/-! ## 2. Where a fault strikes -/

/-- **A fault struck while the turn was being placed**: in the first state the turn was picked to
follow the last one, and the second is how far the swapping of its matches came. -/
structure Strikes (t : Value) (e : Fault) (s s' : Sequencer) : Prop where
  picked : ∃ last, s.placed.getLast? = some last ∧ s.nextTurn? last = .ok (some t)
  shortens : s.shortensStreaks = true
  fault : (shorten t s).1.result = .error e
  left : (shorten t s).2 = s'

section Steps

variable {e : Fault} (hkey : ∀ m ∈ ms, m.home.isKey = true ∧ m.guest.isKey = true)
include hkey

/-- Players of the working copy are those of the schedule. -/
theorem Underway.isKey (h : Underway ps ms s) :
    ∀ m ∈ s.working.fixtures, m.home.isKey = true ∧ m.guest.isKey = true := by
  intro n hn
  obtain ⟨m, hm, rfl | rfl⟩ := h.turned.turned.exists_of_mem hn
  · exact hkey n hm
  · exact (hkey m hm).symm

/-- The turn that is picked is one of the schedule and has not been placed. -/
theorem Underway.of_picked (h : Underway ps ms s) {last : Value}
    (hpicked : s.nextTurn? last = .ok (some t)) :
    t ∈ Schedule.turns ms ∧ ∀ u ∈ s.placed, (t == u) = false := by
  rw [← h.turned.turned.turns_eq]
  exact NextTurn.mem_openTurns.mp (mem_openTurns_of_nextTurn? (h.isKey hkey) hpicked)

/-- Swapping in the turn that is picked touches matches of that turn, however far it comes. -/
theorem Underway.shorten (h : Underway ps ms s) {last : Value}
    (hpicked : s.nextTurn? last = .ok (some t)) :
    (Sequencer.shorten t s).2.placed = s.placed ∧
      Consistent ps ms (fun u => s.placed.contains u = true ∨ (u == t) = true)
        (Sequencer.shorten t s).2 := by
  obtain ⟨ns, hafter, hturned⟩ := exists_working_shorten t s
  rw [hafter]
  exact ⟨rfl, Consistent.swapped h hturned (h.of_picked hkey hpicked).2⟩

/-- What is left where a fault struck. -/
theorem Strikes.consistent (hstrikes : Strikes t e s s') (h : Underway ps ms s) :
    Consistent ps ms (fun u => s'.placed.contains u = true ∨ (u == t) = true) s' := by
  obtain ⟨last, -, hpicked⟩ := hstrikes.picked
  obtain ⟨hplaced, hconsistent⟩ := h.shorten hkey hpicked
  rw [← hstrikes.left, hplaced]
  exact hconsistent

/-- **A step places the turn that is picked, or else a fault strikes** while matches of that turn
are swapped. -/
theorem ends_placeNext (h : Underway ps ms s) :
    Action.Ends placeNext s (fun _ => Underway ps ms) (fun e s' => ∃ t, Strikes t e s s') := by
  unfold placeNext
  refine Action.ends_bind.mpr (Action.ends_state.mpr ?_)
  cases hlast : s.placed.getLast? with
  | none => exact Action.ends_pure.mpr h
  | some last =>
    obtain ⟨answer, hanswer⟩ : ∃ answer, s.nextTurn? last = .ok answer :=
      ⟨_, nextTurn?_eq (h.isKey hkey) last⟩
    refine Action.ends_bind.mpr ((Action.ends_lift_ok hanswer).mpr ?_)
    cases answer with
    | none => exact Action.ends_pure.mpr h
    | some t =>
      obtain ⟨ht, hnew⟩ := h.of_picked hkey hanswer
      have hrest : ∀ {s' : Sequencer}, s'.placed = s.placed →
          Consistent ps ms (fun u => s.placed.contains u = true ∨ (u == t) = true) s' →
          Action.Ends (do
            Outcome.writeAll [placingRecord t last]
            Action.change (place t)) s' (fun _ => Underway ps ms)
            (fun e s' => ∃ t, Strikes t e s s') := by
        intro s' hplaced h'
        refine Action.ends_bind.mpr ((Action.ends_lift_ok rfl).mpr (Action.ends_change.mpr ?_))
        rw [← hplaced] at h' hnew
        exact h'.place ht hnew
      dsimp only
      split
      · rename_i hswitch
        obtain ⟨hplaced, hconsistent⟩ := h.shorten hkey hanswer
        refine Action.ends_bind.mpr ?_
        unfold Action.Ends
        cases hfault : (Sequencer.shorten t s).1.result with
        | ok _ => exact hrest hplaced hconsistent
        | error e => exact ⟨t, ⟨last, hlast, hanswer⟩, hswitch, hfault, rfl⟩
      · exact hrest rfl { h with turned := h.turned.mono fun _ => Or.inl }

/-- **However many turns are to be placed**, a fault strikes in a state that some steps have
reached. -/
theorem ends_placeAll (k : Nat) (h : Underway ps ms s) :
    Action.Ends (placeAll k) s (fun _ => Underway ps ms) (fun e s' => ∃ j before t,
      Action.Runs (placeAll j) s () before ∧ Underway ps ms before ∧ Strikes t e before s') := by
  induction k generalizing s with
  | zero => exact Action.ends_pure.mpr h
  | succ k ih =>
    refine Action.ends_bind.mpr ((ends_placeNext hkey h).mono ?_ ?_)
    · intro _ s₁ hfirst h₁
      refine (ih h₁).mono (fun _ _ _ => id) ?_
      rintro e s' ⟨j, before, t, hruns, hbefore, hstrikes⟩
      exact ⟨j + 1, before, t, Action.runs_bind.mpr ⟨(), s₁, hfirst, hruns⟩, hbefore, hstrikes⟩
    · rintro e s' ⟨t, hstrikes⟩
      exact ⟨0, s, t, Action.runs_pure.mpr ⟨rfl, rfl⟩, h, hstrikes⟩

end Steps

/-! ## 3. The request for the order -/

/-- The sequencer has started again, has placed the first turn, and then some others. -/
def Reaches (s before : Sequencer) : Prop :=
  ∃ first k, (Schedule.turns s.source.fixtures).head? = some first ∧
    Action.Runs (placeAll k) (place first s.restarted) () before

/-- **What a request for the order leaves belongs together**, and if it fails then by a fault that
struck while a turn was being placed. -/
theorem ends_sequence
    (hkeys : ∀ m ∈ ms, m.turn.isKey = true ∧ m.home.isKey = true ∧ m.guest.isKey = true)
    (hparticipants : s.participants = ps) (hsource : s.source = .ofFixtures ms) :
    Action.Ends sequence s (fun _ => Underway ps ms) (fun e s' => ∃ before t,
      Reaches s before ∧ Underway ps ms before ∧ Strikes t e before s') := by
  have hkey : ∀ m ∈ ms, m.home.isKey = true ∧ m.guest.isKey = true := fun m hm => (hkeys m hm).2
  have hrestarted := underway_restarted hparticipants hsource
  have hturns :
      (Outcome.ofExcept (turnsOf s.restarted.source)).result = .ok (Schedule.turns ms) := by
    have hsame : s.restarted.source = .ofFixtures ms := hsource
    rw [hsame]
    exact turnsOf_eq fun m hm => (hkeys m hm).1
  unfold sequence
  refine Action.ends_bind.mpr (Action.ends_change.mpr ?_)
  refine Action.ends_bind.mpr (Action.ends_state.mpr ?_)
  refine Action.ends_bind.mpr ((Action.ends_lift_ok hturns).mpr ?_)
  cases hcases : Schedule.turns ms with
  | nil => exact Action.ends_pure.mpr hrestarted
  | cons first rest =>
    have hfirst : Underway ps ms (place first s.restarted) := by
      refine underway_first hparticipants hsource ?_
      rw [hcases]
      exact List.mem_cons_self
    refine Action.ends_bind.mpr (Action.ends_change.mpr ?_)
    refine Action.ends_bind.mpr ((ends_placeAll hkey rest.length hfirst).mono ?_ ?_)
    · intro _ s' _ h'
      refine Action.ends_bind.mpr (Action.ends_state.mpr ?_)
      exact Action.ends_bind.mpr ((Action.ends_lift_ok rfl).mpr (Action.ends_pure.mpr h'))
    · rintro e s' ⟨k, before, t, hruns, hbefore, hstrikes⟩
      refine ⟨before, t, ⟨first, k, ?_, hruns⟩, hbefore, hstrikes⟩
      have hfixtures : s.source.fixtures = ms := congrArg Sheet.fixtures hsource
      rw [hfixtures, hcases, List.head?_cons]

/-! ## 4. Sessions -/

/-- **What every request keeps**: the participants and the schedule stay, and the working copy is
empty or the schedule, some matches played the other way round. -/
structure Standing (ps : List Value) (ms : List Fixture) (s : Sequencer) : Prop where
  participants : s.participants = ps
  source : s.source = .ofFixtures ms
  read : s.working.unread = []
  turned : s.working.fixtures = [] ∨ Turned ms s.working.fixtures

theorem Consistent.standing {swapped : Value → Prop} (h : Consistent ps ms swapped s) :
    Standing ps ms s :=
  ⟨h.participants, h.source, h.read, Or.inr h.turned.turned⟩

/-- Swapping by hand keeps to it, in whatever state. -/
theorem Standing.shorten (h : Standing ps ms s) (t : Value) :
    Standing ps ms (Sequencer.shorten t s).2 := by
  obtain ⟨ns, hafter, hturned⟩ := exists_working_shorten t s
  rw [hafter]
  refine ⟨h.participants, h.source, h.read, h.turned.imp (fun hnil => ?_) fun hold => ?_⟩
  · rw [hnil] at hturned
    exact List.forall₂_nil_left_iff.mp hturned
  · exact hold.trans hturned.turned

/-- **Every request keeps to it**, whether it succeeds or not. -/
theorem standing_answer
    (hkeys : ∀ m ∈ ms, m.turn.isKey = true ∧ m.home.isKey = true ∧ m.guest.isKey = true)
    (r : Request) (h : Standing ps ms s) : Standing ps ms (answer r s).2 := by
  cases r with
  | sequence =>
    have hleft : Standing ps ms (Sequencer.sequence s).2 := by
      refine Action.ends_always.mp ((ends_sequence hkeys h.participants h.source).mono
        (fun _ _ _ => Consistent.standing) ?_)
      rintro e s' ⟨before, t, -, hbefore, hstrikes⟩
      exact (hstrikes.consistent (fun m hm => (hkeys m hm).2) hbefore).standing
    rwa [answer, Action.snd_bind_pure]
  | shorten t =>
    refine Action.ends_always.mp (Action.ends_bind.mpr (Action.ends_always.mpr ?_))
    exact h.shorten t
  | switch prefersApart shortens => exact ⟨h.participants, h.source, h.read, h.turned⟩
  | «show» => exact h

/-- **However it was used, a sequencer can be relied on.**  Take any schedule of keys, any
participants, whether they include all players or not, and any session of requests, some of which
may have failed.  Then the working copy is empty or the schedule, some matches played the other way
round.  If the order is asked for next, what is left belongs together, and no match is swapped but
in turns that are placed, and in the one that was being placed if the request fails.  And what is
answered and left then is what a new sequencer with the same switches answers and leaves. -/
theorem session_consistent (ms : List Fixture)
    (hkeys : ∀ m ∈ ms, m.turn.isKey = true ∧ m.home.isKey = true ∧ m.guest.isKey = true)
    (ps : List Value) (prefersApart shortens : Bool) (rs : List Request) :
    let s := (Session.run answer rs (create ps (.ofFixtures ms) prefersApart shortens)).2
    (s.working.unread = [] ∧ (s.working.fixtures = [] ∨ Turned ms s.working.fixtures)) ∧
      Action.Ends (answer .sequence) s
        (fun _ s' => Consistent ps ms (fun u => s'.placed.contains u = true) s')
        (fun e s' => ∃ before t, Reaches s before ∧ Strikes t e before s' ∧
          Consistent ps ms (fun u => s'.placed.contains u = true ∨ (u == t) = true) s') ∧
      answer .sequence s
        = answer .sequence (create ps (.ofFixtures ms) s.prefersApart s.shortensStreaks) := by
  intro s
  have hstanding : Standing ps ms s :=
    Session.keeps_run (fun r _ => standing_answer hkeys r) rs ⟨rfl, rfl, rfl, Or.inl rfl⟩
  refine ⟨⟨hstanding.read, hstanding.turned⟩, ?_, ?_⟩
  · refine Action.ends_bind.mpr
      ((ends_sequence hkeys hstanding.participants hstanding.source).mono ?_ ?_)
    · exact fun _ _ _ h => Action.ends_pure.mpr h
    · rintro e s' ⟨before, t, hreaches, hbefore, hstrikes⟩
      exact ⟨before, t, hreaches, hstrikes,
        hstrikes.consistent (fun m hm => (hkeys m hm).2) hbefore⟩
  · have hsame : Sequencer.sequence s
        = Sequencer.sequence (create ps (.ofFixtures ms) s.prefersApart s.shortensStreaks) := by
      rw [sequence_eq_sequence_create, hstanding.participants, hstanding.source]
    simp only [answer, Action.bind_apply, hsame]

/-- A player who is not among the participants: in the last turn the first match is swapped, and at
the second one the request fails, as it has failed before. -/
theorem session_consistent_unknown_player :
    ∃ s before t, s = (Session.run answer [.sequence, .switch (some true) none, .shorten (.int 2)]
        (create [.int 1, .int 2, .int 3] (.ofFixtures
          [⟨.int 1, .int 1, .int 2⟩, ⟨.int 2, .int 1, .int 3⟩, ⟨.int 3, .int 1, .int 2⟩,
            ⟨.int 3, .int 3, .int 4⟩]) false true)).2 ∧
      (answer .sequence s).1.result = .error (.misused .key) ∧
      (answer .sequence s).2.placed = [.int 1, .int 2] ∧
      (answer .sequence s).2.working.fixtures =
        [⟨.int 1, .int 1, .int 2⟩, ⟨.int 2, .int 1, .int 3⟩, ⟨.int 3, .int 2, .int 1⟩,
          ⟨.int 3, .int 3, .int 4⟩] ∧
      Strikes t (.misused .key) before (answer .sequence s).2 ∧
      Consistent [.int 1, .int 2, .int 3]
        [⟨.int 1, .int 1, .int 2⟩, ⟨.int 2, .int 1, .int 3⟩, ⟨.int 3, .int 1, .int 2⟩,
          ⟨.int 3, .int 3, .int 4⟩]
        (fun u => (answer .sequence s).2.placed.contains u = true ∨ (u == t) = true)
        (answer .sequence s).2 := by
  have hsession := session_consistent [⟨.int 1, .int 1, .int 2⟩, ⟨.int 2, .int 1, .int 3⟩,
    ⟨.int 3, .int 1, .int 2⟩, ⟨.int 3, .int 3, .int 4⟩] (by decide) [.int 1, .int 2, .int 3] false
    true [.sequence, .switch (some true) none, .shorten (.int 2)]
  generalize hs : (Session.run _ _ _).2 = s at hsession ⊢
  have hfault : (answer .sequence s).1.result = .error (.misused .key) := by
    rw [← hs]
    rfl
  obtain ⟨before, t, -, hstrikes, hconsistent⟩ := hsession.2.1.of_error hfault
  refine ⟨s, before, t, rfl, hfault, ?_, ?_, hstrikes, hconsistent⟩ <;> rw [← hs] <;> rfl

end Matchday.Sequencer
