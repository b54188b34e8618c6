/-
# Outcomes

Whatever planning does ends with a result or a fault, and either way it leaves the records that it
wrote up to that point (`Outcome`). Where something is also kept from one request to the next, the
request is an action on that state (`Action`): a fault ends the request, and the state stays as
the fault left it.

Two projections of a sequence of two steps carry every later argument about the log: the records
of the second step follow those of the first (`log_bind`), and a fault of the first is the fault
of both (`result_bind`). Records at the level `error` come from rejections alone (`reject`), with
a single exception that is visible where it is made.
-/
import Matchday.Fault
import Matchday.Log

namespace Matchday

/-! ## 1. Outcomes -/

/-- A result or a fault, and the records written on the way. -/
structure Outcome (α : Type) where
  result : Except Fault α
  log : List Record

namespace Outcome

variable {α β : Type}

/-- A result without records. -/
def ok (a : α) : Outcome α := ⟨.ok a, []⟩

/-- The second step works on the result of the first; a fault of the first ends both. -/
def bind (x : Outcome α) (f : α → Outcome β) : Outcome β :=
  match x.result with
  | .error e => ⟨.error e, x.log⟩
  | .ok a => let y := f a; ⟨y.result, x.log ++ y.log⟩

instance : Monad Outcome where
  pure := ok
  bind := bind

/-- A fault without records. -/
def fail (e : Fault) : Outcome α := ⟨.error e, []⟩

/-- A misuse leaves no record. -/
def misuse (m : Misuse) : Outcome α := fail (.misused m)

/-- A record. -/
def write (level : Level) (channel : Channel) (text : String) : Outcome Unit :=
  ⟨.ok (), [⟨level, channel, text⟩]⟩

/-- Some records. -/
def writeAll (records : List Record) : Outcome Unit := ⟨.ok (), records⟩

/-- Something that writes no records. -/
def ofExcept (x : Except Fault α) : Outcome α := ⟨x, []⟩

instance : MonadLift (Except Fault) Outcome := ⟨ofExcept⟩

/-- **The result of two steps**: that of the second on the result of the first. -/
theorem result_bind (x : Outcome α) (f : α → Outcome β) :
    (x >>= f).result = x.result >>= fun a => (f a).result := by
  rcases x with ⟨_ | a, l⟩ <;> rfl

/-- **The log of two steps**: the records of the second follow those of the first. -/
theorem log_bind (x : Outcome α) (f : α → Outcome β) :
    (x >>= f).log = x.log ++ (match x.result with | .ok a => (f a).log | .error _ => []) := by
  rcases x with ⟨_ | a, l⟩
  · exact (List.append_nil l).symm
  · rfl

end Outcome

/-! ## 2. Rejections -/

/-- The part of the planner that turns a round away for this reason. -/
def Rejection.channel : Rejection → Channel
  | .noTable _ => .ideal
  | .nobodyFree _ _ => .referee
  | .undefined _ _ => .choices
  | .negativeMinimum _ | .invertedRange _ _ => .settings
  | _ => .planner

/-- Turns a round away, with a record. -/
def Outcome.reject {α : Type} (r : Rejection) : Outcome α :=
  ⟨.error (.rejected r), [⟨.error, r.channel, r.report⟩]⟩

/-- The first outcome, or the second in its place where the first is a rejection of the given
family. The records of both are kept. -/
def Outcome.orElseOn {α : Type} (x : Outcome α) (family : Family) (y : Outcome α) : Outcome α :=
  match x.result with
  | .error (.rejected r) => if r.family = family then ⟨y.result, x.log ++ y.log⟩ else x
  | _ => x

/-! ## 3. Actions -/

/-- Something done on a state: its outcome, and the state that it leaves. -/
def Action (σ α : Type) : Type := σ → Outcome α × σ

namespace Action

variable {σ α β : Type}

/-- A result that leaves the state as it is. -/
def ok (a : α) : Action σ α := fun s => (Outcome.ok a, s)

/-- The second action works on the state that the first leaves. -/
def bind (x : Action σ α) (f : α → Action σ β) : Action σ β := fun s =>
  match x s with
  | (⟨.error e, log⟩, t) => (⟨.error e, log⟩, t)
  | (⟨.ok a, log⟩, t) => let y := f a t; (⟨y.1.result, log ++ y.1.log⟩, y.2)

instance : Monad (Action σ) where
  pure := ok
  bind := bind

/-- An outcome that leaves the state as it is. -/
def ofOutcome (x : Outcome α) : Action σ α := fun s => (x, s)

instance : MonadLift Outcome (Action σ) := ⟨ofOutcome⟩

/-- The state itself. -/
def state : Action σ σ := fun s => (Outcome.ok s, s)

/-- Changes the state. -/
def change (f : σ → σ) : Action σ Unit := fun s => (Outcome.ok (), f s)

end Action
end Matchday
