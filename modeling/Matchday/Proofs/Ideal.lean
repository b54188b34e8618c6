/-
# What makes an ideal schedule ideal

In the ideal tables home and guest matches alternate as strictly as they can.  With an odd number
of participants nobody has a break.  With an even number `n` nobody has a streak of three, and there
are `n - 2` breaks in all, the fewest that a single round can have
(`IsSingleRound.length_le_breaks`).  Like everything else about the tables this is checked by
computation (`Alternates`, `tables_alternate`).

There is a table for five to fourteen participants and for no other number (`exists_table_iff`).
Then the schedule is that of the table with the participants in their places, so what was checked of
places is true of participants, whoever they are (`plan_isIdeal`).
-/
import Matchday.Proofs.Streaks
import Matchday.Proofs.Tables

namespace Matchday.Ideal

/-! ## 1. The check -/

/-- The longest streak that there has to be: of two matches, unless the number of participants is
odd. -/
def longestNeeded (n : Nat) : Nat := if n % 2 = 0 then 2 else 1

/-- How many breaks there have to be: `n - 2`, unless the number of participants is odd. -/
def breaksNeeded (n : Nat) : Nat := if n % 2 = 0 then n - 2 else 0

/-- **Home and guest matches alternate** as strictly as they can: there are no longer streaks and no
more breaks than there have to be. -/
structure Alternates (n : Nat) (ms : List (Match Nat Nat)) : Prop where
  streaks : ∀ p ∈ List.range n, ∀ r ∈ [Role.home, Role.guest],
    ∀ k ∈ Streak.lengths r p ms, k ≤ longestNeeded n
  breaks : ((List.range n).map fun p => Streak.breaks (Schedule.roles p ms)).sum = breaksNeeded n

instance (n : Nat) (ms : List (Match Nat Nat)) : Decidable (Alternates n ms) :=
  decidable_of_iff
    ((∀ p ∈ List.range n, ∀ r ∈ [Role.home, Role.guest],
        ∀ k ∈ Streak.lengths r p ms, k ≤ longestNeeded n) ∧
      ((List.range n).map fun p => Streak.breaks (Schedule.roles p ms)).sum = breaksNeeded n)
    ⟨fun ⟨h₁, h₂⟩ => ⟨h₁, h₂⟩, fun ⟨h₁, h₂⟩ => ⟨h₁, h₂⟩⟩

/-- **In every table they do.** -/
theorem tables_alternate : ∀ entry ∈ tables, Alternates entry.1 (placesOf entry.2) := by
  iterate 10 refine List.forall_mem_cons.mpr ⟨by decide +kernel, ?_⟩
  exact List.forall_mem_nil _

/-- **Which numbers of participants there are tables for.** -/
theorem exists_table_iff {n : Nat} : (∃ turns, tables.lookup n = some turns) ↔ 5 ≤ n ∧ n ≤ 14 := by
  have hrange : ∀ entry ∈ tables, 5 ≤ entry.1 ∧ entry.1 ≤ 14 := by decide
  have hall : ∀ n ∈ List.range' 5 10, (tables.lookup n).isSome = true := by decide
  constructor
  · rintro ⟨turns, h⟩
    exact hrange _ (mem_of_lookup h)
  · rintro ⟨h5, h14⟩
    exact Option.isSome_iff_exists.mp (hall n (List.mem_range'_1.mpr ⟨h5, by omega⟩))

/-! ## 2. The schedule -/

theorem Alternates.lengths_le {n : Nat} {ms : List (Match Nat Nat)} (h : Alternates n ms) :
    ∀ i < n, ∀ r, ∀ k ∈ Streak.lengths r i ms, k ≤ longestNeeded n := fun i hi r =>
  h.streaks i (List.mem_range.mpr hi) r (by cases r <;> decide)

variable {ps : List Value}

/-- The records of the plan stop nothing. -/
theorem result_plan (ps : List Value) :
    (plan ps).result = match schedule? ps with
      | none => .error (.rejected (.noTable ps.length))
      | some ms => .ok ms := by
  unfold plan
  cases schedule? ps <;> rfl

/-- **Ideal schedules.**  Fewer than five and more than fourteen participants are turned away.  Any
other number of them who are different from each other get a balanced single round, in which nobody
has a longer streak than there has to be, and in which there are as many breaks as there have to be:
with an odd number none at all.  Breaks are found by asking for equality, so participants are counted
who are equal to themselves. -/
theorem plan_isIdeal (hd : AllDifferent ps) :
    (ps.length < 5 ∨ 14 < ps.length →
      (plan ps).result = .error (.rejected (.noTable ps.length)) ∧
        (Rejection.noTable ps.length).family = .participantCount) ∧
    (5 ≤ ps.length → ps.length ≤ 14 →
      ∃ ms : List (Match Nat Value), (plan ps).result = .ok (Schedule.fixtures ms) ∧
        IsSingleRound ps 0 ms ∧ IsBalanced ps (Schedule.fixtures ms) ∧
        ((∀ p ∈ ps, p.isKey = true) →
          Tally.unbalancedOfRows ((Schedule.fixtures ms).map Row.ofFixture) = .ok []) ∧
        (∀ p ∈ ps, ∃ home guest,
          Streak.longestOfRows p ((Schedule.fixtures ms).map Row.ofFixture) = .ok (home, guest) ∧
            home ≤ longestNeeded ps.length ∧ guest ≤ longestNeeded ps.length) ∧
        ((∀ p ∈ ps, equals p p = true) →
          (ps.map fun p => Streak.breaks (Schedule.roles p ms)).sum = breaksNeeded ps.length ∧
          (ps.map fun p => Streak.twos p (Schedule.fixtures ms)).sum = breaksNeeded ps.length)) := by
  constructor
  · intro hout
    have hnone : tables.lookup ps.length = none := by
      refine Option.eq_none_iff_forall_ne_some.mpr fun turns hturns => ?_
      have hin := exists_table_iff.mp ⟨turns, hturns⟩
      omega
    rw [result_plan, schedule?_eq_none hnone]
    exact ⟨rfl, rfl⟩
  · intro h5 h14
    obtain ⟨turns, hturns⟩ := exists_table_iff.mpr ⟨h5, h14⟩
    obtain ⟨h2, hchecked⟩ := tables_checked _ (mem_of_lookup hturns)
    have halternates := tables_alternate _ (mem_of_lookup hturns)
    have hround := hchecked.isSingleRound h2
    have hbalanced := hchecked.isBalanced h2
    refine ⟨Schedule.taken ps (placesOf turns), ?_, Circle.taken_isSingleRound hd hround,
      Circle.taken_isBalanced hd hround hbalanced,
      fun hkey => Circle.taken_unbalancedOfRows hd h2 hkey hround hbalanced,
      fun p hp => Circle.taken_longestOfRows hd hround halternates.lengths_le hp,
      fun hrefl => ?_⟩
    · rw [result_plan, schedule?_eq hturns]
    have hself : ∀ i < ps.length, equals (Circle.sitting ps i) (Circle.sitting ps i) = true :=
      fun i hi => Circle.equals_self_sitting hrefl hi
    constructor
    · rw [Circle.sum_map_eq_sum_sitting, ← halternates.breaks]
      refine sum_map_congr fun i hi => ?_
      have hi := List.mem_range.mp hi
      rw [Circle.taken_roles hd hround hi (hself i hi)]
    · rw [Circle.sum_map_eq_sum_sitting, ← halternates.breaks]
      refine sum_map_congr fun i hi => ?_
      have hi := List.mem_range.mp hi
      rw [Circle.taken_twos hd hround hi (hself i hi)]
      refine Streak.twos_eq_breaks hround.round.not_equals fun r k hk => ?_
      have hle := halternates.lengths_le i hi r k hk
      unfold longestNeeded at hle
      split at hle <;> omega

/-- Six participants of different sorts have four streaks of two matches between them, and nobody
has a longer one. -/
theorem plan_isIdeal_six :
    let ps : List Value := [.text "Ann", .int 2, .tuple [.int 1], .bool false, .none, .text "Bo"]
    ∃ ms : List (Match Nat Value), (plan ps).result = .ok (Schedule.fixtures ms) ∧
      IsSingleRound ps 0 ms ∧
      (∀ p ∈ ps, ∃ home guest,
        Streak.longestOfRows p ((Schedule.fixtures ms).map Row.ofFixture) = .ok (home, guest) ∧
          home ≤ 2 ∧ guest ≤ 2) ∧
      (ps.map fun p => Streak.twos p (Schedule.fixtures ms)).sum = 4 := by
  intro ps
  obtain ⟨ms, hms, hround, -, -, hlongest, hbreaks⟩ :=
    (@plan_isIdeal ps (by decide)).2 (by decide) (by decide)
  have htwos := (hbreaks (by decide)).2
  have hneeded : longestNeeded 6 = 2 ∧ breaksNeeded 6 = 4 := by decide
  have hlength : ps.length = 6 := rfl
  rw [hlength, hneeded.1] at hlongest
  rw [hlength, hneeded.2] at htwos
  exact ⟨ms, hms, hround, hlongest, htwos⟩

end Matchday.Ideal
