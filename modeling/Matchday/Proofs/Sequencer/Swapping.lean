/-
# Swapping in a turn

Before a turn is placed some of its matches may be played the other way round.  Whatever is
decided, and wherever a pass over the matches ends, the matches stay the same ones apart from who
is at home, and those of other turns are not touched (`exists_working_shorten`).  And matches are
swapped only where the decision asks for it (`wanted_swapTurn`, `exists_asked_shorten`).  A decision
can be made about every match whose players are known, once a turn is placed (`exists_decides`), so
with known players a pass goes through to the end (`result_shorten_eq_ok`).
-/
import Matchday.Proofs.Keys
import Matchday.Proofs.Rearrangement
import Matchday.Proofs.Runs
import Matchday.Sequencer
import Matchday.Value.Equivalence

namespace Matchday.Sequencer

/-! ## 1. A pass -/

theorem working_cons (m : Fixture) (swap : Bool) (p : Pass) :
    (p.cons m swap).working = (if swap then m.swapped else m) :: p.working := by
  unfold Pass.cons
  split <;> rfl

theorem fault_cons (m : Fixture) (swap : Bool) (p : Pass) : (p.cons m swap).fault = p.fault := by
  unfold Pass.cons
  split <;> rfl

section Pass

variable {wants : List Fixture → Fixture → Except Fault Bool} {t : Value}

/-- **A pass swaps matches of its turn for which the decision asks, and no others**, wherever it
ends.  What a decision sees are the matches as they stand then, of which others of the turn may have
been swapped. -/
theorem wanted_swapTurn {done before : List Fixture} (hdone : TurnedIn (· == t) done before.reverse)
    (ms : List Fixture) :
    List.Forall₂ (fun m n => n = m ∨ n = m.swapped ∧ (m.turn == t) = true ∧
        ∃ ws, TurnedIn (· == t) (done ++ ms) ws ∧ wants ws m = .ok true)
      ms (swapTurn wants t before ms).working := by
  induction ms generalizing done before with
  | nil => exact List.Forall₂.nil
  | cons m ms ih =>
    have hrest : ∀ n, n = m ∨ n = m.swapped ∧ (m.turn == t) = true →
        List.Forall₂ (fun m' n' => n' = m' ∨ n' = m'.swapped ∧ (m'.turn == t) = true ∧
            ∃ ws, TurnedIn (· == t) (done ++ m :: ms) ws ∧ wants ws m' = .ok true)
          ms (swapTurn wants t (n :: before) ms).working := by
      intro n hn
      have hnext : TurnedIn (· == t) (done ++ [m]) (n :: before).reverse := by
        rw [List.reverse_cons]
        exact hdone.append (List.Forall₂.cons hn List.Forall₂.nil)
      rw [List.append_cons]
      exact ih hnext
    unfold swapTurn
    split
    · rename_i hturn
      split
      · exact List.forall₂_same.mpr fun _ _ => Or.inl rfl
      · rename_i swap hwants
        rw [working_cons]
        cases swap with
        | false => exact List.Forall₂.cons (Or.inl rfl) (hrest m (Or.inl rfl))
        | true =>
          exact List.Forall₂.cons
            (Or.inr ⟨rfl, beq_of_equals hturn, _, hdone.append (TurnedIn.refl _ (m :: ms)), hwants⟩)
            (hrest m.swapped (Or.inr ⟨rfl, beq_of_equals hturn⟩))
    · rw [working_cons]
      exact List.Forall₂.cons (Or.inl rfl) (hrest m (Or.inl rfl))

/-- A pass goes through if a decision is made about every match. -/
theorem fault_swapTurn {ms : List Fixture} (hw : ∀ ns, ∀ m ∈ ms, ∃ b, wants ns m = .ok b)
    (before : List Fixture) : (swapTurn wants t before ms).fault = none := by
  induction ms generalizing before with
  | nil => rfl
  | cons m ms ih =>
    have ih := ih fun ns m hm => hw ns m (List.mem_cons_of_mem _ hm)
    unfold swapTurn
    split
    · obtain ⟨b, hb⟩ := hw (before.reverse ++ m :: ms) m List.mem_cons_self
      rw [hb]
      dsimp only
      rw [fault_cons]
      exact ih _
    · rw [fault_cons]
      exact ih _

end Pass

section Shorten

variable {s : Sequencer}

theorem working_pass (s : Sequencer) (t : Value) :
    (s.pass t).working = (swapTurn s.decides t [] s.working.fixtures).working := by
  unfold pass
  dsimp only
  split
  · split <;> rfl
  · rfl

/-- What swapping in a turn comes to: nothing while one turn is placed, and otherwise a fault where
the pass had one. -/
theorem result_shorten (t : Value) (s : Sequencer) :
    (shorten t s).1.result =
      if s.placed.length = 1 then .ok ()
      else match s.participants.mapM Value.asKey with
        | .error e => .error e
        | .ok _ => match (s.pass t).fault with
          | none => .ok ()
          | some e => .error e := by
  unfold shorten
  simp only [Action.bind_apply, Action.state_apply]
  split
  · rfl
  · simp only [Action.bind_apply, Action.lift_apply, Action.change_apply, Outcome.ofExcept,
      Outcome.writeAll]
    cases s.participants.mapM Value.asKey with
    | error e => rfl
    | ok _ =>
      dsimp only
      cases (s.pass t).fault <;> rfl

/-- What swapping in a turn leaves behind: the working copy as the pass left it, also where the pass
ended with a fault. -/
theorem snd_shorten (t : Value) (s : Sequencer) :
    (shorten t s).2 =
      if s.placed.length = 1 then s
      else match s.participants.mapM Value.asKey with
        | .error _ => s
        | .ok _ => { s with working := { s.working with fixtures := (s.pass t).working } } := by
  unfold shorten
  simp only [Action.bind_apply, Action.state_apply]
  split
  · rfl
  · simp only [Action.bind_apply, Action.lift_apply, Action.change_apply, Outcome.ofExcept,
      Outcome.writeAll]
    cases s.participants.mapM Value.asKey with
    | error e => rfl
    | ok _ =>
      dsimp only
      cases (s.pass t).fault <;> rfl

/-- The decision asks for the match of the turn to be swapped, whatever has been swapped in the turn
so far. -/
def Asks (s : Sequencer) (t : Value) (m : Fixture) : Prop :=
  (m.turn == t) = true ∧
    ∃ ws, TurnedIn (· == t) s.working.fixtures ws ∧ s.decides ws m = .ok true

/-- Matches are swapped where that is asked for, and no others. -/
def SwapsAsked (s : Sequencer) (t : Value) (ms ns : List Fixture) : Prop :=
  List.Forall₂ (fun m n => n = m ∨ n = m.swapped ∧ s.Asks t m) ms ns

theorem SwapsAsked.refl (s : Sequencer) (t : Value) (ms : List Fixture) : s.SwapsAsked t ms ms :=
  List.forall₂_same.mpr fun _ _ => Or.inl rfl

/-- Only matches of the turn are swapped. -/
theorem SwapsAsked.turnedIn {t : Value} {ms ns : List Fixture} (h : s.SwapsAsked t ms ns) :
    TurnedIn (· == t) ms ns :=
  h.imp fun _ _ hmn => hmn.imp_right fun hswap => ⟨hswap.1, hswap.2.1⟩

/-- The matches of any one turn are swapped where that is asked for. -/
theorem SwapsAsked.ofTurn {t : Value} {ms ns : List Fixture} (h : s.SwapsAsked t ms ns)
    (u : Value) : s.SwapsAsked t (Schedule.ofTurn ms u) (Schedule.ofTurn ns u) := by
  refine List.rel_filter (R := fun m n : Fixture => n = m ∨ n = m.swapped ∧ s.Asks t m) ?_ h
  rintro m n (rfl | ⟨rfl, -⟩) <;> exact Iff.rfl

/-- **Swapping in a turn swaps what is asked for in the working copy**, and changes nothing else,
whether it succeeds or not. -/
theorem exists_asked_shorten (t : Value) (s : Sequencer) :
    ∃ ns, (shorten t s).2 = { s with working := { s.working with fixtures := ns } } ∧
      s.SwapsAsked t s.working.fixtures ns := by
  rw [snd_shorten]
  split
  · exact ⟨s.working.fixtures, rfl, SwapsAsked.refl s t _⟩
  split
  · exact ⟨s.working.fixtures, rfl, SwapsAsked.refl s t _⟩
  · refine ⟨(s.pass t).working, rfl, ?_⟩
    have hstart : TurnedIn (· == t) [] ([] : List Fixture).reverse := List.Forall₂.nil
    rw [working_pass]
    exact wanted_swapTurn hstart s.working.fixtures

/-- **Swapping in a turn touches its matches in the working copy, and nothing else**, whether it
succeeds or not. -/
theorem exists_working_shorten (t : Value) (s : Sequencer) :
    ∃ ns, (shorten t s).2 = { s with working := { s.working with fixtures := ns } } ∧
      TurnedIn (· == t) s.working.fixtures ns := by
  obtain ⟨ns, hafter, hasked⟩ := exists_asked_shorten t s
  exact ⟨ns, hafter, hasked.turnedIn⟩

end Shorten

/-! ## 2. Known players -/

/-- All participants serve as keys, and all players are keys found among them. -/
structure Knows (ps : List Value) (ms : List Fixture) : Prop where
  participant_key : ∀ p ∈ ps, p.isKey = true
  home_key : ∀ m ∈ ms, m.home.isKey = true
  guest_key : ∀ m ∈ ms, m.guest.isKey = true
  home_known : ∀ m ∈ ms, ps.contains m.home = true
  guest_known : ∀ m ∈ ms, ps.contains m.guest = true

/-- Participants who serve as keys are known. -/
theorem Knows.of_mem {ps : List Value} {ms : List Fixture} (hkey : ∀ p ∈ ps, p.isKey = true)
    (hmem : ∀ m ∈ ms, m.home ∈ ps ∧ m.guest ∈ ps) : Knows ps ms := by
  have hknown : ∀ p ∈ ps, ps.contains p = true := fun p hp =>
    List.contains_iff_exists_mem_beq.mpr ⟨p, hp, BEq.rfl⟩
  exact ⟨hkey, fun m hm => hkey _ (hmem m hm).1, fun m hm => hkey _ (hmem m hm).2,
    fun m hm => hknown _ (hmem m hm).1, fun m hm => hknown _ (hmem m hm).2⟩

/-- Players stay known when matches are played the other way round. -/
theorem Knows.turned {ps : List Value} {ms ns : List Fixture} (h : Knows ps ms)
    (ht : Turned ms ns) : Knows ps ns := by
  refine ⟨h.participant_key, ?_, ?_, ?_, ?_⟩ <;> intro n hn <;>
    obtain ⟨m, hm, rfl | rfl⟩ := ht.exists_of_mem hn
  · exact h.home_key n hm
  · exact h.guest_key m hm
  · exact h.guest_key n hm
  · exact h.home_key m hm
  · exact h.home_known n hm
  · exact h.guest_known m hm
  · exact h.guest_known n hm
  · exact h.home_known m hm

section Decisions

variable {s : Sequencer} {ms : List Fixture} {m : Fixture}

theorem formOf_eq {ps : List Value} {p : Value} (hkey : p.isKey = true)
    (hknown : ps.contains p = true) (ms : List Fixture) : formOf ps ms p = .ok (form ms p) := by
  unfold formOf
  rw [Value.asKey_of_isKey hkey, if_pos hknown]
  rfl

/-- The last resort of a decision can be asked for, once a turn is placed. -/
theorem exists_repeatsRole {placed : List Value} (hplaced : placed ≠ []) (ms : List Fixture)
    (m : Fixture) : ∃ b, repeatsRole placed ms m = .ok b := by
  unfold repeatsRole
  rw [List.getLast?_eq_some_getLast hplaced]
  exact ⟨_, rfl⟩

theorem exists_wantsSwap {repeated : Except Fault Bool} (h : ∃ b, repeated = .ok b)
    (home guest : Form) : ∃ b, wantsSwap home guest repeated = .ok b := by
  unfold wantsSwap
  split
  · exact ⟨_, rfl⟩
  split
  · exact ⟨_, rfl⟩
  split
  · exact ⟨_, rfl⟩
  split
  · exact h
  · exact ⟨_, rfl⟩

/-- **Matches of known players are decided about.** -/
theorem exists_decides (h : Knows s.participants ms) (hplaced : s.placed ≠ []) (ns : List Fixture)
    (hm : m ∈ ms) : ∃ b, s.decides ns m = .ok b := by
  unfold decides
  rw [formOf_eq (h.home_key m hm) (h.home_known m hm),
    formOf_eq (h.guest_key m hm) (h.guest_known m hm)]
  exact exists_wantsSwap (exists_repeatsRole hplaced ns m) _ _

/-- **Swapping in a turn succeeds** if all players are known and a turn has been placed. -/
theorem result_shorten_eq_ok (t : Value) (hread : s.working.unread = [])
    (h : Knows s.participants s.working.fixtures) (hplaced : s.placed ≠ []) :
    (shorten t s).1.result = .ok () := by
  have hswap : (swapTurn s.decides t [] s.working.fixtures).fault = none :=
    fault_swapTurn (fun ns _ hm => exists_decides h hplaced ns hm) []
  have hfault : (s.pass t).fault = none := by
    unfold pass
    dsimp only
    rw [hswap, hread]
    exact hswap
  rw [result_shorten, mapM_asKey h.participant_key]
  split
  · rfl
  · dsimp only
    rw [hfault]

end Decisions

end Matchday.Sequencer
