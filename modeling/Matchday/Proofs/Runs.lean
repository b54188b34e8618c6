/-
# Runs

An action is a sequence of steps, and a result of the whole comes from a result of every step.
`Action.Runs x s a t` says that `x`, begun in the state `s`, ends with the result `a` and leaves the
state `t`; the records are left out.  One lemma for each way to build an action (`runs_bind` for two
steps) takes a run apart or puts it together.  For outcomes without a state the same is done by
`Outcome.result_bind` and `bind_eq_ok`.  Where failures and records matter too, an action is worked
out step by step (`bind_apply`).

A run that fails may have changed the state before it did.  An action that never does so is called
atomic (`Atomic`): nothing fails in it once something has been changed (`atomic_bind`,
`atomic_of_succeeds`).  Of other actions it is said by `Action.Ends` in which states they may end, one
condition for the runs that succeed and one for those that fail (`ends_bind`).  What every request
keeps in either case is kept by a session (`Session.keeps_run`).

Two runs over corresponding states may correspond at every step; then they do as a whole (`InStep`,
`inStep_bind`).  What only looks at the state leaves it as it is (`Looks`).
-/
import Matchday.Session

namespace Matchday

/-! ## 1. Outcomes -/

theorem Outcome.bind_apply {α β : Type} (x : Outcome α) (f : α → Outcome β) :
    (x >>= f) = match x with
      | ⟨.error e, log⟩ => ⟨.error e, log⟩
      | ⟨.ok a, log⟩ => ⟨(f a).result, log ++ (f a).log⟩ := by
  rcases x with ⟨e | a, log⟩ <;> rfl

/-- Two steps succeed just when the first does and the second does on its result. -/
theorem Outcome.bind_eq_ok {α β : Type} {x : Outcome α} {f : α → Outcome β} {b : β} :
    (x >>= f).result = .ok b ↔ ∃ a, x.result = .ok a ∧ (f a).result = .ok b := by
  rw [Outcome.result_bind]
  constructor
  · intro h
    cases hx : x.result with
    | error e =>
      rw [hx] at h
      cases h
    | ok a =>
      rw [hx] at h
      exact ⟨a, rfl, h⟩
  · rintro ⟨a, hx, h⟩
    rw [hx]
    exact h

/-- A rejection has no result. -/
theorem Outcome.result_reject_ne {α : Type} (r : Rejection) (a : α) :
    (Outcome.reject r : Outcome α).result ≠ .ok a := by
  intro h
  cases h

/-- In place of a rejection of the family comes the second outcome. -/
theorem Outcome.result_orElseOn_reject {α : Type} {r : Rejection} {family : Family}
    (h : r.family = family) (y : Outcome α) :
    ((Outcome.reject r).orElseOn family y).result = y.result := by
  unfold Outcome.orElseOn Outcome.reject
  dsimp only
  rw [if_pos h]

namespace Action

variable {σ α β : Type}

/-! ## 2. What actions do -/

theorem bind_apply (x : Action σ α) (f : α → Action σ β) (s : σ) :
    (x >>= f) s = match x s with
      | (⟨.error e, log⟩, t) => (⟨.error e, log⟩, t)
      | (⟨.ok a, log⟩, t) => (⟨(f a t).1.result, log ++ (f a t).1.log⟩, (f a t).2) := by
  have hbind : (x >>= f) s = Action.bind x f s := rfl
  rw [hbind]
  unfold Action.bind
  rcases x s with ⟨⟨e | a, log⟩, t⟩ <;> rfl

theorem pure_apply (a : α) (s : σ) : (pure a : Action σ α) s = (⟨.ok a, []⟩, s) := rfl

theorem state_apply (s : σ) : (Action.state : Action σ σ) s = (⟨.ok s, []⟩, s) := rfl

theorem change_apply (f : σ → σ) (s : σ) : Action.change f s = (⟨.ok (), []⟩, f s) := rfl

theorem lift_apply (x : Outcome α) (s : σ) : (liftM x : Action σ α) s = (x, s) := rfl

/-- Putting the result in another form leaves the state to the step before. -/
theorem snd_bind_pure (x : Action σ α) (f : α → β) (s : σ) :
    ((x >>= fun a => pure (f a)) s).2 = (x s).2 := by
  rw [bind_apply]
  rcases x s with ⟨⟨e | a, log⟩, t⟩ <;> rfl

theorem fst_bind_pure (x : Action σ α) (f : α → β) (s : σ) :
    ((x >>= fun a => pure (f a)) s).1 = (x s).1 >>= fun a => pure (f a) := by
  rw [bind_apply, Outcome.bind_apply]
  rcases x s with ⟨⟨e | a, log⟩, t⟩ <;> rfl

/-! ## 3. Runs -/

/-- The action ends with the result and leaves the second state. -/
def Runs (x : Action σ α) (s : σ) (a : α) (t : σ) : Prop := (x s).1.result = .ok a ∧ (x s).2 = t

/-- **A run of two steps** is a run of the first and one of the second. -/
theorem runs_bind {x : Action σ α} {f : α → Action σ β} {s u : σ} {b : β} :
    Runs (x >>= f) s b u ↔ ∃ a t, Runs x s a t ∧ Runs (f a) t b u := by
  unfold Runs
  rw [bind_apply]
  rcases x s with ⟨⟨e | a, log⟩, t⟩
  · constructor
    · rintro ⟨h, -⟩
      cases h
    · rintro ⟨a, t, ⟨h, -⟩, -⟩
      cases h
  · constructor
    · exact fun h => ⟨a, t, ⟨rfl, rfl⟩, h⟩
    · rintro ⟨a', t', ⟨ha, rfl⟩, h⟩
      cases ha
      exact h

/-- A pure result leaves the state as it is. -/
theorem runs_pure {s t : σ} {a b : α} : Runs (pure a) s b t ↔ a = b ∧ s = t := by
  constructor
  · rintro ⟨h, ht⟩
    cases h
    exact ⟨rfl, ht⟩
  · rintro ⟨rfl, rfl⟩
    exact ⟨rfl, rfl⟩

theorem runs_state {s t u : σ} : Runs (Action.state : Action σ σ) s t u ↔ s = t ∧ s = u := by
  constructor
  · rintro ⟨h, hu⟩
    cases h
    exact ⟨rfl, hu⟩
  · rintro ⟨rfl, rfl⟩
    exact ⟨rfl, rfl⟩

theorem runs_change {f : σ → σ} {s t : σ} : Runs (Action.change f) s () t ↔ f s = t := by
  constructor
  · exact And.right
  · exact fun h => ⟨rfl, h⟩

/-- An outcome leaves the state as it is. -/
theorem runs_lift {x : Outcome α} {s t : σ} {a : α} :
    Runs (liftM x : Action σ α) s a t ↔ x.result = .ok a ∧ s = t := Iff.rfl

/-! ## 4. Failures -/

/-- **A run that fails leaves the state as it found it.** -/
def Atomic (x : Action σ α) : Prop := ∀ s e, (x s).1.result = .error e → (x s).2 = s

/-- What never fails does not fail half way. -/
theorem atomic_of_succeeds {x : Action σ α} (h : ∀ s, ∃ a, (x s).1.result = .ok a) : Atomic x := by
  intro s e he
  obtain ⟨a, ha⟩ := h s
  rw [he] at ha
  cases ha

theorem atomic_pure (a : α) : Atomic (pure a : Action σ α) :=
  atomic_of_succeeds fun _ => ⟨a, rfl⟩

/-- A step that leaves the state as it is may come before. -/
theorem atomic_bind {x : Action σ α} {f : α → Action σ β} (hx : ∀ s, (x s).2 = s)
    (hf : ∀ a, Atomic (f a)) : Atomic (x >>= f) := by
  intro s e
  rw [bind_apply]
  rcases hxs : x s with ⟨⟨e' | a, log⟩, t⟩
  all_goals obtain rfl : t = s := by rw [← hx s, hxs]
  · exact fun _ => rfl
  · exact hf a t e

theorem atomic_state_bind {f : σ → Action σ β} (hf : ∀ s, Atomic (f s)) :
    Atomic (Action.state >>= f) :=
  atomic_bind (fun _ => rfl) hf

theorem atomic_lift_bind {x : Outcome α} {f : α → Action σ β} (hf : ∀ a, Atomic (f a)) :
    Atomic ((liftM x : Action σ α) >>= f) :=
  atomic_bind (fun _ => rfl) hf

/-! ## 5. Where runs end -/

/-- The run ends with a result and in a state that meet the first condition, or with a fault and in
a state that meet the second. -/
def Ends (x : Action σ α) (s : σ) (Q : α → σ → Prop) (E : Fault → σ → Prop) : Prop :=
  match (x s).1.result with
  | .ok a => Q a (x s).2
  | .error e => E e (x s).2

section Ends

variable {Q Q' : α → σ → Prop} {E E' : Fault → σ → Prop} {s : σ}

/-- **A run of two steps** fails where the first does, and otherwise ends where the second does. -/
theorem ends_bind {x : Action σ α} {f : α → Action σ β} {Q : β → σ → Prop} :
    Ends (x >>= f) s Q E ↔ Ends x s (fun a t => Ends (f a) t Q E) E := by
  unfold Ends
  rw [bind_apply]
  rcases x s with ⟨⟨e | a, log⟩, t⟩ <;> rfl

theorem ends_pure {a : α} : Ends (pure a : Action σ α) s Q E ↔ Q a s := Iff.rfl

theorem ends_state {Q : σ → σ → Prop} : Ends (Action.state : Action σ σ) s Q E ↔ Q s s := Iff.rfl

theorem ends_change {f : σ → σ} {Q : Unit → σ → Prop} :
    Ends (Action.change f) s Q E ↔ Q () (f s) := Iff.rfl

/-- An outcome leaves the state as it is. -/
theorem ends_lift_ok {x : Outcome α} {a : α} (h : x.result = .ok a) :
    Ends (liftM x : Action σ α) s Q E ↔ Q a s := by
  unfold Ends
  rw [lift_apply, h]

/-- Weaker conditions are met as well. -/
theorem Ends.mono {x : Action σ α} (h : Ends x s Q E) (hQ : ∀ a t, Runs x s a t → Q a t → Q' a t)
    (hE : ∀ e t, E e t → E' e t) : Ends x s Q' E' := by
  unfold Ends at h ⊢
  cases hresult : (x s).1.result with
  | ok a =>
    rw [hresult] at h
    exact hQ a _ ⟨hresult, rfl⟩ h
  | error e =>
    rw [hresult] at h
    exact hE e _ h

theorem Ends.of_runs {x : Action σ α} (h : Ends x s Q E) {a : α} {t : σ} (hruns : Runs x s a t) :
    Q a t := by
  obtain ⟨hresult, rfl⟩ := hruns
  unfold Ends at h
  rwa [hresult] at h

theorem Ends.of_error {x : Action σ α} (h : Ends x s Q E) {e : Fault}
    (he : (x s).1.result = .error e) : E e (x s).2 := by
  unfold Ends at h
  rwa [he] at h

/-- A condition on the state alone is met however the run ends. -/
theorem ends_always {x : Action σ α} {I : σ → Prop} :
    Ends x s (fun _ => I) (fun _ => I) ↔ I (x s).2 := by
  unfold Ends
  cases (x s).1.result <;> exact Iff.rfl

end Ends

/-! ## 6. Runs in step -/

/-- Two runs keep in step.  The second is begun in the state that corresponds to that of the first,
has the corresponding result or the same fault, and leaves the corresponding state. -/
def InStep {τ : Type} (k : σ → τ) (r : α → β) (x : Action σ α) (y : Action τ β) (s : σ) : Prop :=
  (y (k s)).1.result = (x s).1.result.map r ∧ (y (k s)).2 = k (x s).2

section InStep

variable {τ γ δ : Type} {k : σ → τ} {r : α → β} {s : σ}

/-- **Two steps keep in step** if each of them does. -/
theorem inStep_bind {x : Action σ α} {y : Action τ β} {f : α → Action σ γ} {g : β → Action τ δ}
    {q : γ → δ} (hx : InStep k r x y s) (hf : ∀ a t, Runs x s a t → InStep k q (f a) (g (r a)) t) :
    InStep k q (x >>= f) (y >>= g) s := by
  unfold InStep at hx hf ⊢
  unfold Runs at hf
  rw [bind_apply, bind_apply]
  generalize x s = xs at hx hf ⊢
  generalize y (k s) = ys at hx ⊢
  rcases xs with ⟨⟨e | a, log⟩, t⟩ <;> rcases ys with ⟨⟨e' | b, log'⟩, u⟩ <;>
    obtain ⟨hresult, hstate⟩ := hx <;> cases hresult <;> cases hstate
  · exact ⟨rfl, rfl⟩
  · exact hf a t ⟨rfl, rfl⟩

theorem inStep_pure (a : α) : InStep k r (pure a : Action σ α) (pure (r a)) s := ⟨rfl, rfl⟩

theorem inStep_state : InStep k k (Action.state : Action σ σ) Action.state s := ⟨rfl, rfl⟩

theorem inStep_change {f : σ → σ} {g : τ → τ} (h : g (k s) = k (f s)) :
    InStep k id (Action.change f) (Action.change g) s := ⟨rfl, h⟩

/-- An outcome leaves both states as they are. -/
theorem inStep_lift {x : Outcome α} {y : Outcome β} (h : y.result = x.result.map r) :
    InStep k r (liftM x : Action σ α) (liftM y : Action τ β) s := ⟨h, rfl⟩

end InStep

/-! ## 7. Looking -/

/-- **Whatever comes of it, the state is left as it is.** -/
def Looks (x : Action σ α) : Prop := ∀ s, (x s).2 = s

theorem looks_pure (a : α) : Looks (pure a : Action σ α) := fun _ => rfl

theorem looks_state : Looks (Action.state : Action σ σ) := fun _ => rfl

theorem looks_lift (x : Outcome α) : Looks (liftM x : Action σ α) := fun _ => rfl

/-- Two looks are a look. -/
theorem looks_bind {x : Action σ α} {f : α → Action σ β} (hx : Looks x) (hf : ∀ a, Looks (f a)) :
    Looks (x >>= f) := by
  intro s
  have hs := hx s
  rw [bind_apply]
  generalize x s = xs at hs ⊢
  rcases xs with ⟨⟨e | a, log⟩, t⟩
  · exact hs
  · exact (hf a t).trans hs

end Action

/-- **What every request keeps, a session keeps**, whether the requests succeed or not. -/
theorem Session.keeps_run {σ ρ α : Type} {answer : ρ → Action σ α} {I : σ → Prop}
    (h : ∀ r s, I s → I (answer r s).2) (rs : List ρ) {s : σ} (hs : I s) :
    I (Session.run answer rs s).2 := by
  induction rs generalizing s with
  | nil => exact hs
  | cons r rs ih => exact ih (h r s hs)

/-- A session that only looks leaves the state as it was. -/
theorem Session.run_of_looks {σ ρ α : Type} {answer : ρ → Action σ α} {rs : List ρ}
    (h : ∀ r ∈ rs, Action.Looks (answer r)) (s : σ) : (Session.run answer rs s).2 = s := by
  induction rs with
  | nil => rfl
  | cons r rs ih =>
    have hs := h r List.mem_cons_self s
    rw [Session.run]
    dsimp only
    rw [hs]
    exact ih fun q hq => h q (List.mem_cons_of_mem r hq)

end Matchday
