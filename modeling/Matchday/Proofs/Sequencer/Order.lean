/-
# The order of turns

A sequencer plays the turns of its schedule in another order.  `Keeps` is what holds of it after
every turn placed: the working copy has the matches of the schedule, perhaps the other way round;
the turns placed are different turns of the schedule; and the result is their matches in the
working copy, turn by turn.  Swapping before a turn is placed does not touch the turns placed
before (`Keeps.swapped`), and a turn that is placed was open (`Keeps.place`), so each step keeps to
it (`exists_placeNext`) and so do all (`exists_placeAll`).

Since a step places one turn as long as one is open, all are placed in the end (`exists_order`), and
the result is the schedule turn by turn, from the first turn on, in an order of the turns
(`exists_sequence`).
What a sequencer has done before does not matter, as it starts again from its schedule
(`sequence_reorders`).
-/
import Mathlib.Data.List.Perm.Subperm
import Matchday.Proofs.Numbering
import Matchday.Proofs.Sequencer.Picking
import Matchday.Proofs.Sequencer.Swapping

namespace Matchday.Sequencer

/-! ## 1. What is kept -/

/-- **What a sequencer keeps to** while it places the turns of a schedule. -/
structure Keeps (ps : List Value) (shortens : Bool) (ms : List Fixture) (s : Sequencer) : Prop where
  participants : s.participants = ps
  switch : s.shortensStreaks = shortens
  read : s.working.unread = []
  turned : Turned ms s.working.fixtures
  unswapped : shortens = false → s.working.fixtures = ms
  different : AllDifferent s.placed
  ofSchedule : ∀ t ∈ s.placed, t ∈ Schedule.turns ms
  result : s.result = s.placed.flatMap (Schedule.ofTurn s.working.fixtures)

namespace Keeps

variable {ps : List Value} {shortens : Bool} {ms : List Fixture} {s : Sequencer} {t : Value}

/-- The working copy has the turns of the schedule. -/
theorem turns_eq (h : Keeps ps shortens ms s) :
    Schedule.turns s.working.fixtures = Schedule.turns ms :=
  h.turned.turns_eq

/-- An open turn is a turn of the schedule that has not been placed. -/
theorem mem_openTurns (h : Keeps ps shortens ms s) :
    t ∈ NextTurn.openTurns s.working.fixtures s.placed
      ↔ t ∈ Schedule.turns ms ∧ ∀ u ∈ s.placed, (t == u) = false := by
  rw [NextTurn.mem_openTurns, h.turns_eq]

/-- **As long as not all turns are placed, one is open.** -/
theorem openTurns_ne_nil (h : Keeps ps shortens ms s)
    (hlt : s.placed.length < (Schedule.turns ms).length) :
    NextTurn.openTurns s.working.fixtures s.placed ≠ [] := by
  intro hnil
  have hdiff : AllDifferent (Schedule.turns ms) := allDifferent_eraseDups _
  have hsub : Schedule.turns ms ⊆ s.placed := by
    intro t ht
    by_contra hnew
    have hopen : t ∈ NextTurn.openTurns s.working.fixtures s.placed := by
      refine h.mem_openTurns.mpr ⟨ht, fun u hu => Bool.eq_false_iff.mpr fun htu => hnew ?_⟩
      rw [hdiff.eq_of_beq ht (h.ofSchedule u hu) htu]
      exact hu
    rw [hnil] at hopen
    exact List.not_mem_nil hopen
  have hle := (List.subperm_of_subset hdiff.nodup hsub).length_le
  omega

/-- Placing an open turn keeps to it. -/
theorem place (h : Keeps ps shortens ms s) (ht : t ∈ Schedule.turns ms)
    (hnew : ∀ u ∈ s.placed, (t == u) = false) : Keeps ps shortens ms (place t s) where
  participants := h.participants
  switch := h.switch
  read := h.read
  turned := h.turned
  unswapped := h.unswapped
  different := h.different.concat hnew
  ofSchedule := by
    intro u hu
    rcases List.mem_append.mp hu with hu | hu
    · exact h.ofSchedule u hu
    · rw [List.mem_singleton.mp hu]
      exact ht
  result := by
    rw [Sequencer.place, h.result, List.flatMap_append, List.flatMap_singleton]

/-- Swapping in a turn that is still open keeps to it. -/
theorem swapped (h : Keeps ps shortens ms s) (hswitch : shortens = true) {ns : List Fixture}
    (hturned : TurnedIn (· == t) s.working.fixtures ns)
    (hnew : ∀ u ∈ s.placed, (t == u) = false) :
    Keeps ps shortens ms { s with working := { s.working with fixtures := ns } } where
  participants := h.participants
  switch := h.switch
  read := h.read
  turned := h.turned.trans hturned.turned
  unswapped := fun hoff => by
    rw [hswitch] at hoff
    cases hoff
  different := h.different
  ofSchedule := h.ofSchedule
  result := h.result.trans (hturned.flatMap_ofTurn hnew).symm

end Keeps

/-! ## 2. Steps -/

section Steps

variable {ps : List Value} {shortens : Bool} {ms : List Fixture} {s : Sequencer}

/-- **A step places an open turn**, as long as there is one. -/
theorem exists_placeNext (hknows : Knows ps ms) (h : Keeps ps shortens ms s)
    (hplaced : s.placed ≠ []) (hlt : s.placed.length < (Schedule.turns ms).length) :
    ∃ t s', Action.Runs placeNext s () s' ∧ Keeps ps shortens ms s' ∧
      s'.placed = s.placed ++ [t] := by
  have hworking : Knows s.participants s.working.fixtures := by
    rw [h.participants]
    exact hknows.turned h.turned
  obtain ⟨t, hopen, hnext⟩ := exists_nextTurn (s.placed.getLast hplaced)
    (fun m hm => ⟨hworking.home_key m hm, hworking.guest_key m hm⟩) (h.openTurns_ne_nil hlt)
  obtain ⟨ht, hnew⟩ := h.mem_openTurns.mp hopen
  -- the turn may be prepared by swapping, which is all the same to what comes after
  obtain ⟨s', hprepared, hkeeps, hsame⟩ : ∃ s',
      Action.Runs (if s.shortensStreaks then shorten t else pure ()) s () s' ∧
        Keeps ps shortens ms s' ∧ s'.placed = s.placed := by
    by_cases hswitch : s.shortensStreaks = true
    · obtain ⟨ns, hafter, hturned⟩ := exists_working_shorten t s
      refine ⟨_, ?_, h.swapped (h.switch.symm.trans hswitch) hturned hnew, rfl⟩
      rw [if_pos hswitch]
      exact ⟨result_shorten_eq_ok t h.read hworking hplaced, hafter⟩
    · refine ⟨s, ?_, h, rfl⟩
      rw [if_neg hswitch]
      exact Action.runs_pure.mpr ⟨rfl, rfl⟩
  refine ⟨t, place t s', ?_, hkeeps.place ht (hsame ▸ hnew), ?_⟩
  · have hrest : Action.Runs (do
        Outcome.writeAll [placingRecord t (s.placed.getLast hplaced)]
        Action.change (Sequencer.place t)) s' () (Sequencer.place t s') :=
      Action.runs_bind.mpr ⟨(), s', Action.runs_lift.mpr ⟨rfl, rfl⟩, Action.runs_change.mpr rfl⟩
    refine Action.runs_bind.mpr ⟨s, s, Action.runs_state.mpr ⟨rfl, rfl⟩, ?_⟩
    rw [List.getLast?_eq_some_getLast hplaced]
    refine Action.runs_bind.mpr ⟨some t, s, Action.runs_lift.mpr ⟨hnext, rfl⟩, ?_⟩
    dsimp only
    split
    · rename_i hswitch
      rw [if_pos hswitch] at hprepared
      exact Action.runs_bind.mpr ⟨(), s', hprepared, hrest⟩
    · rename_i hswitch
      rw [if_neg hswitch] at hprepared
      obtain ⟨-, rfl⟩ := Action.runs_pure.mp hprepared
      exact hrest
  · rw [Sequencer.place, hsame]

/-- **As many turns are placed as are asked for.** -/
theorem exists_placeAll (hknows : Knows ps ms) (k : Nat) (h : Keeps ps shortens ms s)
    (hplaced : s.placed ≠ []) (hle : s.placed.length + k ≤ (Schedule.turns ms).length) :
    ∃ ts s', Action.Runs (placeAll k) s () s' ∧ Keeps ps shortens ms s' ∧
      s'.placed = s.placed ++ ts ∧ ts.length = k := by
  induction k generalizing s with
  | zero =>
    exact ⟨[], s, Action.runs_pure.mpr ⟨rfl, rfl⟩, h, (List.append_nil _).symm, rfl⟩
  | succ k ih =>
    obtain ⟨t, s₁, hruns₁, hkeeps₁, hplaced₁⟩ := exists_placeNext hknows h hplaced (by omega)
    have hne : s₁.placed ≠ [] := by
      rw [hplaced₁]
      exact List.append_ne_nil_of_right_ne_nil _ (List.cons_ne_nil t [])
    have hlen : s₁.placed.length + k ≤ (Schedule.turns ms).length := by
      rw [hplaced₁, List.length_append, List.length_singleton]
      omega
    obtain ⟨ts, s₂, hruns₂, hkeeps₂, hplaced₂, hcount⟩ := ih hkeeps₁ hne hlen
    refine ⟨t :: ts, s₂, Action.runs_bind.mpr ⟨(), s₁, hruns₁, hruns₂⟩, hkeeps₂, ?_, ?_⟩
    · rw [hplaced₂, hplaced₁, List.append_assoc, List.singleton_append]
    · rw [List.length_cons, hcount]

end Steps

/-! ## 3. The whole run -/

/-- The turns of a schedule whose turns serve as keys. -/
theorem turnsOf_eq {ms : List Fixture} (hturn : ∀ m ∈ ms, m.turn.isKey = true) :
    turnsOf (.ofFixtures ms) = .ok (Schedule.turns ms) := by
  have hread : (Sheet.ofFixtures ms).fixtures.mapM Row.timed = .ok ms := mapM_timed hturn
  rw [turnsOf, hread]
  rfl

/-- **All turns are placed.**  The sequencer succeeds when all players are known and turns serve as
keys, and in the end the turns placed are those of the schedule, the first one first. -/
theorem exists_order {ps : List Value} {ms : List Fixture} (hknows : Knows ps ms)
    (hturn : ∀ m ∈ ms, m.turn.isKey = true) (prefersApart shortens : Bool) :
    ∃ s, Action.Runs sequence (create ps (.ofFixtures ms) prefersApart shortens) s.result s ∧
      Keeps ps shortens ms s ∧ s.placed.Perm (Schedule.turns ms) ∧
      s.placed.head? = (Schedule.turns ms).head? := by
  have hturns := turnsOf_eq hturn
  generalize hstart : (create ps (.ofFixtures ms) prefersApart shortens) = s₀
  have hsource : (restarted s₀).source = .ofFixtures ms := by rw [← hstart]; rfl
  have hnone : Keeps ps shortens ms (restarted s₀) := by
    rw [← hstart]
    exact ⟨rfl, rfl, rfl, Turned.refl ms, fun _ => rfl, List.Pairwise.nil,
      fun t ht => absurd ht List.not_mem_nil, rfl⟩
  cases hcases : Schedule.turns ms with
  | nil =>
    refine ⟨restarted s₀, ?_, hnone, List.Perm.refl [], rfl⟩
    refine Action.runs_bind.mpr ⟨(), restarted s₀, Action.runs_change.mpr rfl, ?_⟩
    refine Action.runs_bind.mpr ⟨_, restarted s₀, Action.runs_state.mpr ⟨rfl, rfl⟩, ?_⟩
    rw [hsource, hturns, hcases]
    refine Action.runs_bind.mpr ⟨[], restarted s₀, Action.runs_lift.mpr ⟨rfl, rfl⟩, ?_⟩
    exact Action.runs_pure.mpr ⟨rfl, rfl⟩
  | cons t us =>
    have hfirst : Keeps ps shortens ms (place t (restarted s₀)) := by
      refine hnone.place ?_ fun u hu => absurd hu List.not_mem_nil
      rw [hcases]
      exact List.mem_cons_self
    have hplaced : (place t (restarted s₀)).placed = [t] := rfl
    obtain ⟨ts, s, hruns, hkeeps, hts, hcount⟩ := exists_placeAll hknows us.length hfirst
      (by rw [hplaced]; exact List.cons_ne_nil t [])
      (by rw [hplaced, hcases, List.length_singleton, List.length_cons]; omega)
    rw [hplaced, List.singleton_append] at hts
    refine ⟨s, ?_, hkeeps, ?_, ?_⟩
    · refine Action.runs_bind.mpr ⟨(), restarted s₀, Action.runs_change.mpr rfl, ?_⟩
      refine Action.runs_bind.mpr ⟨_, restarted s₀, Action.runs_state.mpr ⟨rfl, rfl⟩, ?_⟩
      rw [hsource, hturns, hcases]
      refine Action.runs_bind.mpr ⟨t :: us, restarted s₀, Action.runs_lift.mpr ⟨rfl, rfl⟩, ?_⟩
      refine Action.runs_bind.mpr ⟨(), place t (restarted s₀), Action.runs_change.mpr rfl, ?_⟩
      refine Action.runs_bind.mpr ⟨(), s, hruns, ?_⟩
      refine Action.runs_bind.mpr ⟨s, s, Action.runs_state.mpr ⟨rfl, rfl⟩, ?_⟩
      refine Action.runs_bind.mpr ⟨(), s, Action.runs_lift.mpr ⟨rfl, rfl⟩, ?_⟩
      exact Action.runs_pure.mpr ⟨rfl, rfl⟩
    · have hsub : s.placed ⊆ t :: us := fun u hu => hcases ▸ hkeeps.ofSchedule u hu
      refine (List.subperm_of_subset hkeeps.different.nodup hsub).perm_of_length_le
        (Nat.le_of_eq ?_)
      rw [hts, List.length_cons, List.length_cons, hcount]
    · rw [hts]
      rfl

/-- **The sequencer plays whole turns in another order.**  The result is the schedule, some matches
perhaps the other way round, turn by turn in an order that starts with its first turn. -/
theorem exists_sequence {ps : List Value} {ms : List Fixture} (hknows : Knows ps ms)
    (hturn : ∀ m ∈ ms, m.turn.isKey = true) (prefersApart shortens : Bool) :
    ∃ (ns : List Fixture) (ts : List Value) (s : Sequencer),
      Action.Runs sequence (create ps (.ofFixtures ms) prefersApart shortens)
        (ts.flatMap (Schedule.ofTurn ns)) s ∧
      Turned ms ns ∧ (shortens = false → ns = ms) ∧
      ts.Perm (Schedule.turns ms) ∧ ts.head? = (Schedule.turns ms).head? := by
  obtain ⟨s, hruns, hkeeps, hperm, hhead⟩ := exists_order hknows hturn prefersApart shortens
  rw [hkeeps.result] at hruns
  exact ⟨s.working.fixtures, s.placed, s, hruns, hkeeps.turned, hkeeps.unswapped, hperm, hhead⟩

/-! ## 4. Whatever was done before -/

/-- A sequencer starts from its schedule. -/
theorem sequence_eq_sequence_create (s : Sequencer) :
    sequence s = sequence (create s.participants s.source s.prefersApart s.shortensStreaks) := rfl

/-- **Only whole turns change places.**  Of any schedule whose entries serve as keys, and whose
players are among the participants, a sequencer makes the concatenation of its turns in some order
that starts with the first one: every match stays in its turn, in its place among the matches of the
turn, and with its two players.  Who is at home changes only if streaks are to be shortened.  So no
match is played twice, and none is lost but those of turns that are not equal to themselves. -/
theorem sequence_reorders {s : Sequencer} {ms : List Fixture} (hsource : s.source = .ofFixtures ms)
    (hkeys : ∀ m ∈ ms, m.turn.isKey = true ∧ m.home.isKey = true ∧ m.guest.isKey = true)
    (hparticipants : ∀ p ∈ s.participants, p.isKey = true)
    (hknown : ∀ m ∈ ms, s.participants.contains m.home = true ∧
      s.participants.contains m.guest = true) :
    ∃ (ns : List Fixture) (ts : List Value), (sequence s).1.result = .ok ns ∧
      ts.Perm (Schedule.turns ms) ∧ ts.head? = (ms.map (·.turn)).head? ∧
      Turned (ts.flatMap (Schedule.ofTurn ms)) ns ∧
      (s.shortensStreaks = false → ns = ts.flatMap (Schedule.ofTurn ms)) ∧
      (ts.flatMap (Schedule.ofTurn ms)).Perm (ms.filter fun m => equals m.turn m.turn) := by
  have hknows : Knows s.participants ms :=
    ⟨hparticipants, fun m hm => (hkeys m hm).2.1, fun m hm => (hkeys m hm).2.2,
      fun m hm => (hknown m hm).1, fun m hm => (hknown m hm).2⟩
  obtain ⟨os, ts, s', ⟨hresult, -⟩, hturned, hsame, hperm, hhead⟩ :=
    exists_sequence hknows (fun m hm => (hkeys m hm).1) s.prefersApart s.shortensStreaks
  refine ⟨_, ts, ?_, hperm, ?_, hturned.turnByTurn ts, fun hoff => by rw [hsame hoff],
    Schedule.perm_of_perm_turns hperm⟩
  · rw [sequence_eq_sequence_create, hsource]
    exact hresult
  · rw [hhead]
    cases ms with
    | nil => rfl
    | cons m ms => rw [Schedule.turns, List.map_cons, List.eraseDups_cons]; rfl

/-- A schedule whose turns do not stand together and are no whole numbers, one of them no number at
all, for a sequencer that has already done something else.  It keeps the other three matches. -/
theorem sequence_reorders_irregular :
    let ms : List Fixture := [⟨.text "b", .text "Ann", .int 2⟩, ⟨.none, .bool false, .text "Ann"⟩,
      ⟨.decimal (.noNumber 0), .int 2, .int 2⟩, ⟨.text "b", .bool false, .int 2⟩]
    ∃ (ns : List Fixture) (ts : List Value),
      (sequence ⟨[.text "Ann", .int 2, .bool false], .ofFixtures ms, true, true, .empty, [.int 7],
        []⟩).1.result = .ok ns ∧
      ts.Perm [.text "b", .none, .decimal (.noNumber 0)] ∧
      Turned (ts.flatMap (Schedule.ofTurn ms)) ns ∧
      (ts.flatMap (Schedule.ofTurn ms)).Perm [⟨.text "b", .text "Ann", .int 2⟩,
        ⟨.none, .bool false, .text "Ann"⟩, ⟨.text "b", .bool false, .int 2⟩] := by
  intro ms
  obtain ⟨ns, ts, hresult, hperm, -, hturned, -, hkept⟩ := sequence_reorders
    (s := ⟨[.text "Ann", .int 2, .bool false], .ofFixtures ms, true, true, .empty, [.int 7], []⟩)
    rfl (by decide) (by decide) (by decide)
  exact ⟨ns, ts, hresult, hperm, hturned, hkept⟩

/-- **Matches of a turn that is no number are lost.**  Entries are keys and players are known, and
the turn is placed.  But it is not equal to itself, so that it has no matches. -/
theorem sequence_loses_match :
    let ms : List Fixture := [⟨.decimal (.noNumber 0), .int 1, .int 2⟩]
    (∀ m ∈ ms, m.turn.isKey = true ∧ m.home.isKey = true ∧ m.guest.isKey = true) ∧
      (∀ m ∈ ms, [Value.int 1, .int 2].contains m.home = true ∧
        [Value.int 1, .int 2].contains m.guest = true) ∧
      (sequence (create [.int 1, .int 2] (.ofFixtures ms) false false)).1.result = .ok [] ∧
      ¬ ([] : List Fixture).Perm ms :=
  ⟨by decide, by decide, rfl, by simp⟩

end Matchday.Sequencer
