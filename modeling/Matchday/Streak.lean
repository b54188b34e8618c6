/-
# Streaks

A streak is a run of matches that a player has in one role, uninterrupted by the opposite role;
matches of other players do not interrupt it. A schedule is read from its end. At a match in which
the player holds the role, a streak is opened. It stays open over all earlier matches, counting
those in the role, and is closed by the first in the opposite role or by the start of the
schedule. Its length is then reported. A match outside of any streak is reported as zero.

The reports come one by one, and a reader may stop after a few. That matters where a row is too
short to tell: reading gets no further than the first such row whose part is needed
(`Report.cut`), but everything reported before it stands.
-/
import Matchday.Row

namespace Matchday

/-! ## 1. Reading backwards -/

/-- What a row tells about a player: whether it holds the role in question, and whether it holds
the opposite one. Nothing, where the row has no such part. -/
structure Sighting where
  held : Option Bool
  opposed : Option Bool

/-- The lengths reported, and whether the reading was cut short by a missing part. -/
structure Report where
  given : List Nat
  cut : Bool

namespace Report

/-- The end of the schedule. -/
def done : Report := ⟨[], false⟩

/-- A missing part. -/
def stopped : Report := ⟨[], true⟩

/-- One length more, in front. -/
def cons (n : Nat) (r : Report) : Report := ⟨n :: r.given, r.cut⟩

/-- All lengths. -/
def all (r : Report) : Except Fault (List Nat) :=
  if r.cut then .error (.misused .index) else .ok r.given

/-- The first `k` lengths. -/
def first (k : Nat) (r : Report) : Except Fault (List Nat) :=
  if k ≤ r.given.length then .ok (r.given.take k) else r.all

/-- The longest streak, zero if there is none. -/
def longest (r : Report) : Except Fault Nat := r.all.map fun ns => ns.foldl max 0

end Report

namespace Streak

/-- Reads sightings, latest first. The number is the length so far of the streak that is open. -/
def read : Option Nat → List Sighting → Report
  | none, [] => .done
  | some n, [] => .cons n .done
  | none, s :: rest =>
    match s.held with
    | none => .stopped
    | some true => read (some 1) rest
    | some false => .cons 0 (read none rest)
  | some n, s :: rest =>
    match s.held, s.opposed with
    | some held, some opposed =>
      let n := if held then n + 1 else n
      if opposed then .cons n (read none rest) else read (some n) rest
    | _, _ => .stopped

/-! ## 2. Schedules -/

variable {τ α : Type} [BEq α] [Equality α]

/-- What a match tells about a player. -/
def sight (r : Role) (p : α) (m : Match τ α) : Sighting :=
  ⟨some (equals (m.player r) p), some (equals (m.player r.opposite) p)⟩

/-- The lengths reported for a player in a role, latest first. -/
def lengths (r : Role) (p : α) (ms : List (Match τ α)) : List Nat :=
  (read none (ms.reverse.map (sight r p))).given

/-- The first length reported: the streak that is open at the end of the schedule, if the last
match has the player in the role. -/
def current (r : Role) (p : α) (ms : List (Match τ α)) : Nat := (lengths r p ms).headD 0

/-- The longest streak of a player in a role. -/
def longest (r : Role) (p : α) (ms : List (Match τ α)) : Nat := (lengths r p ms).foldl max 0

/-- Matches tell all that is needed. -/
theorem read_sight_cut (r : Role) (p : α) (ms : List (Match τ α)) (o : Option Nat) :
    (read o (ms.map (sight r p))).cut = false := by
  induction ms generalizing o with
  | nil => cases o <;> rfl
  | cons m ms ih =>
    cases o <;> simp only [List.map_cons, read, sight] <;> split <;>
      first | exact ih _ | simp_all

/-! ## 3. Rows -/

/-- What a row tells about a player. -/
def sightRow (r : Role) (p : Value) (row : Row) : Sighting :=
  ⟨row[Row.place r]?.map (equals · p), row[Row.place r.opposite]?.map (equals · p)⟩

/-- The report on a player in a role, for a schedule in rows. -/
def report (r : Role) (p : Value) (rows : List Row) : Report :=
  read none (rows.reverse.map (sightRow r p))

/-- The longest streaks of a player at home and as a guest, for a schedule in rows. -/
def longestOfRows (p : Value) (rows : List Row) : Except Fault (Nat × Nat) := do
  return (← (report .home p rows).longest, ← (report .guest p rows).longest)

@[simp] theorem sightRow_ofFixture (r : Role) (p : Value) (m : Fixture) :
    sightRow r p (Row.ofFixture m) = sight r p m := by cases r <;> rfl

/-- **Rows that are matches are reported as such.** -/
theorem report_ofFixtures (r : Role) (p : Value) (ms : List Fixture) :
    report r p (ms.map Row.ofFixture) = ⟨lengths r p ms, false⟩ := by
  have h : report r p (ms.map Row.ofFixture) = read none (ms.reverse.map (sight r p)) := by
    simp [report, ← List.map_reverse, Function.comp_def]
  rw [h, lengths]
  have hc := read_sight_cut r p ms.reverse none
  generalize read none (ms.reverse.map (sight r p)) = x at hc ⊢
  cases x
  simp_all

end Streak
end Matchday
