/-
# Tallies

How often the participants of a schedule play at home and as guests. A schedule is balanced when
these two counts stay as close together as the number of matches allows: with `n` players both
lie between `(n - 1) / 2` rounded down and rounded up. For an odd `n` that makes them equal.
-/
import Matchday.Row

namespace Matchday

/-- The matches of one player, by role. -/
structure Count (α : Type) where
  player : α
  home : Nat
  guest : Nat
deriving DecidableEq

namespace Tally

variable {τ α : Type} [BEq α]

/-! ## 1. Counting -/

/-- How many matches a player has in a role. -/
def gamesAs (r : Role) (p : α) (ms : List (Match τ α)) : Nat := ms.countP (·.player r == p)

/-- The counts of all players, in order of first appearance. -/
def counts (ms : List (Match τ α)) : List (Count α) :=
  (Schedule.players ms).map fun p => ⟨p, gamesAs .home p ms, gamesAs .guest p ms⟩

theorem gamesAs_append (r : Role) (p : α) (ms ns : List (Match τ α)) :
    gamesAs r p (ms ++ ns) = gamesAs r p ms + gamesAs r p ns := List.countP_append

/-- One count for each player. -/
@[simp] theorem map_player_counts (ms : List (Match τ α)) :
    (counts ms).map (·.player) = Schedule.players ms := by
  simp [counts, Function.comp_def]

/-! ## 2. Balance -/

/-- A count that is as close to half as `n` players allow. -/
def isEven (n k : Nat) : Bool := (n - 1) / 2 ≤ k && k ≤ n / 2

/-- The counts of the players who are not balanced. -/
def unbalanced (ms : List (Match τ α)) : List (Count α) :=
  let all := counts ms
  all.filter fun c => !(isEven all.length c.home && isEven all.length c.guest)

/-! ## 3. Rows -/

/-- The counts of a schedule in rows. Every row has to be a match between two keys. -/
def countsOfRows (rows : List Row) : Except Fault (List (Count Value)) := do
  return counts (← rows.mapM (·.fixture >>= Row.counted))

/-- The players who are not balanced, for a schedule in rows. -/
def unbalancedOfRows (rows : List Row) : Except Fault (List (Count Value)) := do
  return unbalanced (← rows.mapM (·.fixture >>= Row.counted))

end Tally
end Matchday
