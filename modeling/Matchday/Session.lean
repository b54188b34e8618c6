/-
# Sessions

A session is a list of requests to one state. Each request finds the state as the one before has
left it, whether that one succeeded or not, and each has an outcome of its own.
-/
import Matchday.Outcome

namespace Matchday.Session

variable {σ ρ α : Type}

/-- The outcomes of some requests, one after the other, and the state after the last. -/
def run (answer : ρ → Action σ α) : List ρ → σ → List (Outcome α) × σ
  | [], s => ([], s)
  | r :: rs, s =>
    let (x, t) := answer r s
    let (xs, u) := run answer rs t
    (x :: xs, u)

/-- The records of a session are those of its requests, in their order. -/
def log (outcomes : List (Outcome α)) : List Record := outcomes.flatMap (·.log)

end Matchday.Session
