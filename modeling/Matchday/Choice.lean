/-
# Choices

Two things are chosen by name or number when a round is planned: who referees the matches, and
which half of the double round is wanted. Members have a name in capitals and a number; the
numbers of a choice run without a gap, and names and numbers are pairwise different, so that
either one names the member.
-/
namespace Matchday

/-! ## 1. The two choices -/

/-- Who referees a match: nobody, its home or guest participant, or somebody else of the
round. -/
inductive RefereeRule where
  | nobody
  | home
  | guest
  | other
deriving DecidableEq

/-- A half of the double round: the first leg, or the one in which every match is played the
other way round. -/
inductive Half where
  | first
  | mirrored
deriving DecidableEq

/-! ## 2. Names and numbers -/

namespace RefereeRule

/-- All rules, by number. -/
def all : List RefereeRule := [.nobody, .home, .guest, .other]

/-- The name of a rule. -/
def name : RefereeRule → String
  | .nobody => "NONE"
  | .home => "HOME"
  | .guest => "GUEST"
  | .other => "OTHER_FROM_ROUND"

/-- The number of a rule. -/
def number : RefereeRule → Nat
  | .nobody => 0
  | .home => 1
  | .guest => 2
  | .other => 3

end RefereeRule

namespace Half

/-- Both halves, by number. -/
def all : List Half := [.first, .mirrored]

/-- The name of a half. -/
def name : Half → String
  | .first => "FIRST"
  | .mirrored => "RETURN"

/-- The number of a half. -/
def number : Half → Nat
  | .first => 1
  | .mirrored => 2

end Half
end Matchday
