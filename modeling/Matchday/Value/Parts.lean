/-
# The parts of a value

Tuples, lists and sets have items, a dictionary has keys and values, and nothing else has parts.
Since parts are smaller than what they are parts of, a property that passes from the parts of a
value to the value holds of all values (`Value.byParts`).
-/
import Matchday.Value

namespace Matchday.Value

/-- The values that a value is made of. -/
def parts : Value → List Value
  | .tuple items | .list items | .set items => items
  | .dict entries => entries.flatMap fun e => [e.1, e.2]
  | .none | .bool _ | .int _ | .decimal _ | .text _ | .bye | .rule _ | .half _ => []

/-- A part is smaller than the whole. -/
theorem sizeOf_lt_of_mem_parts {p v : Value} (h : p ∈ v.parts) : sizeOf p < sizeOf v := by
  cases v with
  | tuple items | list items | set items =>
    have := List.sizeOf_lt_of_mem (show p ∈ items from h)
    simp only [Value.tuple.sizeOf_spec, Value.list.sizeOf_spec, Value.set.sizeOf_spec]
    omega
  | dict entries =>
    obtain ⟨e, he, hp⟩ := List.mem_flatMap.mp h
    have := List.sizeOf_lt_of_mem he
    obtain ⟨k, w⟩ := e
    simp only [Prod.mk.sizeOf_spec] at this
    simp only [Value.dict.sizeOf_spec]
    simp only [List.mem_cons, List.not_mem_nil, or_false] at hp
    rcases hp with rfl | rfl <;> omega
  | none | bool | int | decimal | text | bye | rule | half => exact absurd h (by simp [parts])

/-- **Induction on parts.** What holds of a value whenever it holds of all its parts, holds of
every value. -/
theorem byParts {P : Value → Prop} (step : ∀ v, (∀ p ∈ v.parts, P p) → P v) (v : Value) : P v :=
  step v fun p hp =>
    have := sizeOf_lt_of_mem_parts hp
    byParts step p
termination_by sizeOf v

end Matchday.Value
