/-
# What the log says about failures

A rejection is reported: whoever turns a round away writes a record at the level `error` and raises
it in the same step.  `Outcome.Reports` says that this is all there is at that level.  The visible
records are those reported before, and after them the one of the rejection that ends the outcome, if
one does.  A misuse ends an outcome without any record.

The property is carried from step to step (`Reports.bind`), since a step that succeeds has nothing
of its own to report.  The one place where it takes more is a rejection that is caught: its record
stays although something else is done in its place (`reports_orElseOn`).

Steps that write no records must not reject anything either (`NoRejection`).
-/
import Matchday.Proofs.Runs

namespace Matchday

/-! ## 1. Results without a rejection -/

/-- The result is no rejection: it may still be a fault. -/
def NoRejection {α : Type} (x : Except Fault α) : Prop := ∀ r, x ≠ .error (.rejected r)

namespace NoRejection

variable {α β : Type} {x : Except Fault α}

theorem ok (a : α) : NoRejection (.ok a : Except Fault α) := nofun

theorem misused (m : Misuse) : NoRejection (.error (.misused m) : Except Fault α) := nofun

theorem ite {p : Prop} [Decidable p] {y : Except Fault α} (hx : NoRejection x)
    (hy : NoRejection y) : NoRejection (if p then x else y) := by
  split
  · exact hx
  · exact hy

/-- Two steps reject nothing if neither does. -/
theorem bind {f : α → Except Fault β} (hx : NoRejection x) (hf : ∀ a, NoRejection (f a)) :
    NoRejection (x >>= f) := by
  cases x with
  | error e =>
    intro r h
    cases h
    exact hx r rfl
  | ok a => exact hf a

/-- A pass over a list rejects nothing if no step of it does. -/
theorem mapM {f : α → Except Fault β} {xs : List α} (hf : ∀ x ∈ xs, NoRejection (f x)) :
    NoRejection (xs.mapM f) := by
  induction xs with
  | nil => exact ok []
  | cons x xs ih =>
    rw [List.mapM_cons]
    exact (hf x List.mem_cons_self).bind fun b =>
      (ih fun y hy => hf y (List.mem_cons_of_mem x hy)).bind fun bs => ok (b :: bs)

end NoRejection

/-! ## 2. Outcomes that report -/

/-- The record of a rejection. -/
def Rejection.record (r : Rejection) : Record := ⟨.error, r.channel, r.report⟩

/-- What is reported about a fault: a rejection, and nothing else. -/
def Fault.reported : Fault → List Record
  | .rejected r => [r.record]
  | _ => []

/-- What is reported about a result. -/
def reported {α : Type} : Except Fault α → List Record
  | .error e => e.reported
  | .ok _ => []

theorem mem_visibleAt_error {records : List Record} {r : Record} :
    r ∈ visibleAt .error records ↔ r ∈ records ∧ r.level = .error := by
  rw [visibleAt, List.mem_filter, decide_eq_true_eq]
  refine and_congr_right fun _ => ?_
  cases r.level <;> decide

/-- Records below the level `error` are not visible at it. -/
theorem visibleAt_error_eq_nil {records : List Record} (h : ∀ r ∈ records, r.level ≠ .error) :
    visibleAt .error records = [] := by
  refine List.eq_nil_iff_forall_not_mem.mpr fun r hr => ?_
  obtain ⟨hmem, hlevel⟩ := mem_visibleAt_error.mp hr
  exact h r hmem hlevel

theorem visibleAt_append (threshold : Level) (records more : List Record) :
    visibleAt threshold (records ++ more)
      = visibleAt threshold records ++ visibleAt threshold more :=
  List.filter_append ..

theorem NoRejection.reported_eq_nil {α : Type} {x : Except Fault α} (h : NoRejection x) :
    reported x = [] := by
  rcases x with (r | m | -) | a
  · exact absurd rfl (h r)
  · rfl
  · rfl
  · rfl

namespace Outcome

variable {α β : Type} {before : List Record} {x : Outcome α} {f : α → Outcome β}

/-- **The outcome reports its rejection**, and nothing else but what was reported before. -/
def Reports (before : List Record) (x : Outcome α) : Prop :=
  visibleAt .error x.log = before ++ reported x.result

theorem reports_pure (a : α) : Reports [] (pure a : Outcome α) := rfl

theorem reports_reject (r : Rejection) : Reports [] (reject r : Outcome α) := rfl

theorem reports_misuse (m : Misuse) : Reports [] (misuse m : Outcome α) := rfl

theorem reports_ofExcept {x : Except Fault α} (h : NoRejection x) : Reports [] (ofExcept x) :=
  h.reported_eq_nil.symm

theorem reports_fail {e : Fault} (h : ∀ r, e ≠ .rejected r) : Reports [] (fail e : Outcome α) :=
  reports_ofExcept fun r hr => h r (Except.error.inj hr)

theorem reports_writeAll {records : List Record} (h : ∀ r ∈ records, r.level ≠ .error) :
    Reports [] (writeAll records) :=
  visibleAt_error_eq_nil h

/-- **Two steps report** if both do, and nothing is lost of what was reported before. -/
theorem Reports.bind (hx : Reports before x) (hf : ∀ a, x.result = .ok a → Reports [] (f a)) :
    Reports before (x >>= f) := by
  rcases x with ⟨e | a, log⟩
  · exact hx
  · have hf := hf a rfl
    unfold Reports at hx hf ⊢
    rw [log_bind, result_bind, visibleAt_append, hx, hf, List.append_assoc]
    rfl

/-- What a second step has reported before stays when the first has nothing to report. -/
theorem reports_bind_of_ok {a : α} (hx : Reports [] x) (ha : x.result = .ok a)
    (hf : Reports before (f a)) : Reports before (x >>= f) := by
  unfold Reports at hx hf ⊢
  rw [log_bind, result_bind, visibleAt_append, hx, ha, hf]
  rfl

/-- A fault of the first step leaves it at that. -/
theorem reports_bind_of_error {e : Fault} (hx : Reports before x) (he : x.result = .error e) :
    Reports before (x >>= f) := by
  rcases x with ⟨_ | a, log⟩
  · exact hx
  · cases he

/-- **A rejection that is caught** is reported all the same. -/
theorem reports_orElseOn {r : Rejection} {family : Family} (h : r.family = family) {y : Outcome α}
    (hy : Reports before y) : Reports (r.record :: before) ((reject r).orElseOn family y) := by
  unfold orElseOn reject
  dsimp only
  rw [if_pos h]
  exact congrArg (r.record :: ·) hy

/-- Where nothing is rejected, nothing is caught. -/
theorem reports_orElseOn_of_ok {family : Family} {a : α} (hx : Reports before x)
    (ha : x.result = .ok a) (y : Outcome α) : Reports before (x.orElseOn family y) := by
  unfold orElseOn
  rw [ha]
  exact hx

/-- A record at the level `error` is written. -/
def WritesError (x : Outcome α) : Prop := ∃ e ∈ x.log, e.level = .error

/-- The outcome is a rejection. -/
def IsRejected (x : Outcome α) : Prop := ∃ r, x.result = .error (.rejected r)

theorem reported_ne_nil_iff : reported x.result ≠ [] ↔ x.IsRejected := by
  unfold IsRejected
  rcases x.result with (r | m | -) | a
  · exact ⟨fun _ => ⟨r, rfl⟩, fun _ => List.cons_ne_nil _ _⟩
  all_goals exact ⟨fun h => absurd rfl h, nofun⟩

/-- **An outcome that reports** writes such a record just when it is a rejection, or something was
reported before. -/
theorem Reports.writesError_iff (h : Reports before x) :
    x.WritesError ↔ x.IsRejected ∨ before ≠ [] := by
  have hvisible : x.WritesError ↔ visibleAt .error x.log ≠ [] := by
    rw [Ne, List.eq_nil_iff_forall_not_mem, Classical.not_forall_not]
    exact exists_congr fun e => mem_visibleAt_error.symm
  rw [hvisible, h, ← reported_ne_nil_iff, Ne, List.append_eq_nil_iff,
    Classical.not_and_iff_not_or_not, or_comm]

end Outcome

namespace Action

variable {σ α β : Type}

/-- **In every state the action reports its rejection**, and nothing else. -/
def Reports (x : Action σ α) : Prop := ∀ s, Outcome.Reports [] (x s).1

theorem reports_pure (a : α) : Reports (pure a : Action σ α) := fun _ => rfl

theorem reports_state : Reports (Action.state : Action σ σ) := fun _ => rfl

theorem reports_change (f : σ → σ) : Reports (Action.change f) := fun _ => rfl

theorem reports_lift {x : Outcome α} (h : Outcome.Reports [] x) :
    Reports (liftM x : Action σ α) := fun _ => h

/-- **Two steps report** if both do. -/
theorem Reports.bind {x : Action σ α} {f : α → Action σ β} (hx : Reports x)
    (hf : ∀ a, Reports (f a)) : Reports (x >>= f) := by
  intro s
  have hs := hx s
  rw [bind_apply]
  generalize x s = xs at hs ⊢
  rcases xs with ⟨⟨e | a, log⟩, t⟩
  · exact hs
  · have ht := hf a t
    unfold Outcome.Reports at hs ht ⊢
    dsimp only at hs ⊢
    rw [visibleAt_append, hs, ht]
    rfl

end Action

end Matchday
