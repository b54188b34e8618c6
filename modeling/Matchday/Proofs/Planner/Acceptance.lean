/-
# Which participants are accepted

Participants are accepted as they come in, or not at all.  A collection is accepted just when it
has an order of its own and its items are keys of the right kind, no two of them the same
(`accept_eq_ok_iff`).  So whoever plans with accepted participants may rely on all of that.
-/
import Matchday.Planner
import Matchday.Proofs.Distinct
import Matchday.Proofs.Runs
import Matchday.Value.Equivalence

namespace Matchday

/-- Nothing stands in the way of values that all serve as keys. -/
theorem Value.firstObstacle?_eq_none_iff {vs : List Value} :
    Value.firstObstacle? vs = Option.none ↔ ∀ v ∈ vs, v.isKey = true := by
  rw [Value.firstObstacle?_eq, List.findSome?_eq_none_iff]
  refine forall₂_congr fun v _ => ?_
  rw [Value.isKey, Option.isNone_iff_eq_none]

namespace Planner

/-- **What is accepted**: different keys of the right kind, from a collection with an order. -/
theorem accept_eq_ok_iff {kind : Kind} {source : Source} {items : List Value} :
    (accept kind source).result = .ok items ↔
      source.unorderedName? = none ∧ source.items = .ok items ∧
        (∀ p ∈ items, p.isOf kind = true) ∧ (∀ p ∈ items, p.isKey = true) ∧
        AllDifferent items := by
  cases hname : source.unorderedName? with
  | some name =>
    unfold accept
    rw [hname]
    constructor
    · exact fun h => absurd h (Outcome.result_reject_ne _ _)
    · rintro ⟨h, -⟩
      cases h
  | none =>
    unfold accept
    rw [hname]
    dsimp only
    rw [Outcome.bind_eq_ok]
    constructor
    · rintro ⟨vs, hvs, h⟩
      split at h
      · exact absurd h (Outcome.result_reject_ne _ _)
      rename_i hkind
      split at h
      · exact absurd h (Outcome.result_reject_ne _ _)
      rename_i hkey
      split at h
      · rename_i hlen
        cases h
        refine ⟨rfl, hvs, fun p hp => ?_, Value.firstObstacle?_eq_none_iff.mp hkey,
          length_eraseDups_iff.mp hlen⟩
        simpa using List.find?_eq_none.mp hkind p hp
      · exact absurd h (Outcome.result_reject_ne _ _)
    · rintro ⟨-, hvs, hof, hkey, hdiff⟩
      refine ⟨items, hvs, ?_⟩
      have hkind : items.find? (!·.isOf kind) = none :=
        List.find?_eq_none.mpr fun p hp => by simp [hof p hp]
      rw [hkind, Value.firstObstacle?_eq_none_iff.mpr hkey]
      dsimp only
      rw [if_pos (length_eraseDups_iff.mpr hdiff)]
      rfl

end Planner
end Matchday
