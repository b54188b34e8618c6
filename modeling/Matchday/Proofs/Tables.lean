/-
# What the ideal tables hold

The tables are data, so what is true of them is checked by computation, table by table
(`tables_checked`).  `Checked` lists what is looked at: players in range and different, every two
of them meeting once, nobody twice in a turn, turns that ascend and keep to their range, and home
matches in half of all, rounded down or up.  A table that passes is a balanced single round of the
places from zero on (`places_isSingleRound`, `places_isBalanced`), and the schedule is that round
with the participants in their places (`schedule?_eq`).
-/
import Matchday.Proofs.Circle.Seating
import Matchday.Proofs.Numbering

namespace Matchday.Ideal

/-! ## 1. The check -/

/-- The matches of a table by place, places and turns counted from zero. -/
def placesOf (turns : List Turn) : List (Match Nat Nat) :=
  (numbered turns).map (·.map (· - 1) (· - 1))

/-- What is checked of a table for `n` participants. -/
structure Checked (n : Nat) (turns : List Turn) : Prop where
  fromOne : ∀ m ∈ numbered turns, 1 ≤ m.turn
  players : ∀ m ∈ placesOf turns, m.home < n ∧ m.guest < n ∧ (m.home == m.guest) = false
  inRange : ∀ m ∈ placesOf turns, m.turn < turnCount n
  meetings : ∀ p ∈ List.range n, ∀ q ∈ List.range n, (p == q) = false →
    (placesOf turns).countP (Match.isBetween p q) = 1
  appearances : ∀ t ∈ List.range (turnCount n), ∀ p ∈ List.range n,
    (Schedule.ofTurn (placesOf turns) t).countP (Match.involves p) ≤ 1
  ascending : ((placesOf turns).map (·.turn)).Pairwise (· ≤ ·)
  homes : ∀ p ∈ List.range n, (n - 1) / 2 ≤ Tally.gamesAs .home p (placesOf turns) ∧
    Tally.gamesAs .home p (placesOf turns) ≤ n / 2

instance (n : Nat) (turns : List Turn) : Decidable (Checked n turns) :=
  decidable_of_iff
    ((∀ m ∈ numbered turns, 1 ≤ m.turn) ∧
      (∀ m ∈ placesOf turns, m.home < n ∧ m.guest < n ∧ (m.home == m.guest) = false) ∧
      (∀ m ∈ placesOf turns, m.turn < turnCount n) ∧
      (∀ p ∈ List.range n, ∀ q ∈ List.range n, (p == q) = false →
        (placesOf turns).countP (Match.isBetween p q) = 1) ∧
      (∀ t ∈ List.range (turnCount n), ∀ p ∈ List.range n,
        (Schedule.ofTurn (placesOf turns) t).countP (Match.involves p) ≤ 1) ∧
      ((placesOf turns).map (·.turn)).Pairwise (· ≤ ·) ∧
      ∀ p ∈ List.range n, (n - 1) / 2 ≤ Tally.gamesAs .home p (placesOf turns) ∧
        Tally.gamesAs .home p (placesOf turns) ≤ n / 2)
    ⟨fun ⟨h₁, h₂, h₃, h₄, h₅, h₆, h₇⟩ => ⟨h₁, h₂, h₃, h₄, h₅, h₆, h₇⟩,
      fun ⟨h₁, h₂, h₃, h₄, h₅, h₆, h₇⟩ => ⟨h₁, h₂, h₃, h₄, h₅, h₆, h₇⟩⟩

/-- **Every table passes.** -/
theorem tables_checked : ∀ entry ∈ tables, 2 ≤ entry.1 ∧ Checked entry.1 entry.2 := by
  -- a decision for each table: what has been worked out in one is kept until it ends
  iterate 10 refine List.forall_mem_cons.mpr ⟨by decide +kernel, ?_⟩
  exact List.forall_mem_nil _

/-! ## 2. What follows -/

section Passed

variable {n : Nat} {turns : List Turn}

/-- **A table that passes is a single round of the places.** -/
theorem Checked.isSingleRound (h : Checked n turns) (h2 : 2 ≤ n) :
    IsSingleRound (List.range n) 0 (placesOf turns) := by
  have hround : IsRound (List.range n) (placesOf turns) := by
    refine ⟨fun m hm => List.mem_range.mpr (h.players m hm).1,
      fun m hm => List.mem_range.mpr (h.players m hm).2.1, fun m hm => (h.players m hm).2.2,
      h.meetings, fun t p hp => ?_⟩
    by_cases ht : t < turnCount n
    · exact h.appearances t (List.mem_range.mpr ht) p hp
    · have hnone : Schedule.ofTurn (placesOf turns) t = [] := by
        refine List.filter_eq_nil_iff.mpr fun m hm hmt => ht ?_
        rw [← eq_of_beq (beq_of_equals hmt)]
        exact h.inRange m hm
      rw [hnone]
      exact Nat.zero_le 1
  refine hround.isSingleRound (allDifferent_range n) ?_ h.ascending fun m hm =>
    ⟨Nat.zero_le _, ?_⟩
  · rwa [List.length_range]
  · rw [List.length_range, Nat.zero_add]
    exact h.inRange m hm

/-- **A table that passes is balanced.** -/
theorem Checked.isBalanced (h : Checked n turns) (h2 : 2 ≤ n) :
    IsBalanced (List.range n) (placesOf turns) := by
  refine (h.isSingleRound h2).round.isBalanced_of_home (allDifferent_range n) ?_
  rw [List.length_range]
  exact h.homes

end Passed

/-- A table that is found is one of the tables. -/
theorem mem_of_lookup {n : Nat} {turns : List Turn} (h : tables.lookup n = some turns) :
    (n, turns) ∈ tables := by
  obtain ⟨before, after, heq, -⟩ := List.lookup_eq_some_iff.mp h
  rw [heq]
  exact List.mem_append_right before List.mem_cons_self

/-- **The schedule is that of the places**, taken by the participants. -/
theorem schedule?_eq {ps : List Value} {turns : List Turn}
    (h : tables.lookup ps.length = some turns) :
    schedule? ps = some (Schedule.fixtures (Schedule.taken ps (placesOf turns))) := by
  have hchecked := (tables_checked _ (mem_of_lookup h)).2
  rw [schedule?, table?, h, Circle.fixtures_taken, placesOf, List.map_map]
  refine congrArg some (List.map_congr_left fun m hm => ?_)
  have hturn := hchecked.fromOne m hm
  have hshift : (m.turn : Int) - 1 = ((m.turn - 1 : Nat) : Int) := by omega
  rw [Function.comp_apply, Match.map, hshift]
  rfl

/-- Without a table there is no schedule. -/
theorem schedule?_eq_none {ps : List Value} (h : tables.lookup ps.length = none) :
    schedule? ps = none := by
  rw [schedule?, table?, h]
  rfl

end Matchday.Ideal
