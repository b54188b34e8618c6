/-
# Rows

Schedules come in as rows of values, and a row is a match when it has three parts. Some questions
need only one part of a row and are answered for rows of other lengths as well, so a row is read
as late as possible: `fixture` for all of it, `part` for a single place.
-/
import Matchday.Match
import Matchday.Outcome

namespace Matchday

/-- The parts of a match as they came in: normally its turn, its home participant and its guest. -/
abbrev Row := List Value

namespace Row

/-- The match that a row is. -/
def fixture : Row → Except Fault Fixture
  | [t, h, g] => .ok ⟨t, h, g⟩
  | _ => .error (.misused .shape)

/-- The row of a match. -/
def ofFixture (m : Fixture) : Row := [m.turn, m.home, m.guest]

/-- The part in a place, counted from zero. -/
def part (r : Row) (i : Nat) : Except Fault Value :=
  match r[i]? with
  | some v => .ok v
  | none => .error (.misused .index)

/-- Where the participant in a role stands. -/
def place : Role → Nat
  | .home => 1
  | .guest => 2

@[simp] theorem fixture_ofFixture (m : Fixture) : fixture (ofFixture m) = .ok m := rfl

/-- A match whose turn has to serve as a key. -/
def timed (m : Fixture) : Except Fault Fixture := do
  m.turn.asKey
  return m

/-- A match whose participants have to serve as keys. -/
def counted (m : Fixture) : Except Fault Fixture := do
  m.home.asKey
  m.guest.asKey
  return m

end Row

/-! ## Sheets -/

/-- The matches at the head of a list of rows, and the rows from the first one that is no match
on. -/
structure Sheet where
  fixtures : List Fixture
  unread : List Row

namespace Sheet

/-- Nothing at all. -/
def empty : Sheet := ⟨[], []⟩

/-- The sheet of a schedule. -/
def ofFixtures (ms : List Fixture) : Sheet := ⟨ms, []⟩

/-- The sheet of some rows. -/
def ofRows : List Row → Sheet
  | [] => empty
  | r :: rs =>
    match r.fixture with
    | .ok m => let s := ofRows rs; ⟨m :: s.fixtures, s.unread⟩
    | .error _ => ⟨[], r :: rs⟩

/-- The rows of a sheet. -/
def rows (s : Sheet) : List Row := s.fixtures.map Row.ofFixture ++ s.unread

end Sheet
end Matchday
