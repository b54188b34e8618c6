/-
# The circle method

The participants sit in a circle of an even number of seats; if they are an odd number, one seat
is left to the bye. The first seat stays in place while the others move on by one seat per turn.
In each turn the first seat meets the one that has come round to it, and the remaining seats meet
in pairs across the circle. With `m` seats this goes on for `m - 1` turns, until everybody has met
everybody.

Home and guest alternate: for the first seat from turn to turn, for the others from pair to pair
across the circle. A pair with the bye is not played and its other member rests. With an odd number
of participants the last turn is then balanced.

The pairs are worked out on seats (`pairs`), so that what is true of them is plain arithmetic. The
first seat is never taken for the bye, whoever sits there.
-/
import Matchday.Balance

namespace Matchday.Circle

/-! ## 1. Seats -/

/-- The number of seats for `n` participants. -/
def seats (n : Nat) : Nat := n + n % 2

/-- The `k`-th of the rotating seats of a circle of `m`, going round. -/
def rotating (m k : Nat) : Nat := 1 + k % (m - 1)

/-- The pair of the first seat in a turn, counted from zero. -/
def fixedPair (m t : Nat) : Nat × Nat :=
  if t % 2 = 0 then (0, rotating m t) else (rotating m t, 0)

/-- The `i`-th pair across the circle. -/
def foldedPair (m t i : Nat) : Nat × Nat :=
  let near := rotating m (t + i)
  let far := rotating m (t + (m - 1) - i)
  if i % 2 = 0 then (near, far) else (far, near)

/-- The pairs of a turn, the home seat first. -/
def pairs (m t : Nat) : List (Nat × Nat) :=
  fixedPair m t :: (List.range' 1 (m / 2 - 1)).map (foldedPair m t)

/-- A pair is played unless one of its seats is vacant. The first seat never is. -/
def isPlayed (vacant : Nat → Bool) (pair : Nat × Nat) : Bool :=
  (pair.1 == 0 || !vacant pair.1) && (pair.2 == 0 || !vacant pair.2)

/-- The matches of a turn on seats. Turns are numbered from one. -/
def turnOnSeats (vacant : Nat → Bool) (m t : Nat) : List (Match Nat Nat) :=
  ((pairs m t).filter (isPlayed vacant)).map fun pair => ⟨t + 1, pair.1, pair.2⟩

/-- The matches of all turns on seats. -/
def onSeats (vacant : Nat → Bool) (m : Nat) : List (Match Nat Nat) :=
  (List.range (m - 1)).flatMap (turnOnSeats vacant m)

/-! ## 2. Participants -/

/-- The value is the bye. -/
def isBye : Value → Bool
  | .bye => true
  | _ => false

/-- Who sits on a seat. -/
def sitting (ps : List Value) (i : Nat) : Value := ps.getD i .bye

/-- The matches of a turn. -/
def turn (ps : List Value) (t : Nat) : List Fixture :=
  (turnOnSeats (isBye <| sitting ps ·) (seats ps.length) t).map
    (·.map (fun k : Nat => .int k) (sitting ps))

/-- The matches of all turns, before the last turn is balanced. -/
def rotation (ps : List Value) : List Fixture :=
  (List.range (seats ps.length - 1)).flatMap (turn ps)

/-- The number of the last turn. -/
def lastTurn (ps : List Value) : Int := (seats ps.length : Int) - 1

/-- The schedule. -/
def schedule (ps : List Value) : List Fixture :=
  if ps.length % 2 = 0 then rotation ps else Balance.repaired (.int (lastTurn ps)) (rotation ps)

/-! ## 3. Records -/

/-- The record of a turn: its number, counted from one, and its matches. -/
def turnRecord (ps : List Value) (t : Nat) : Record :=
  ⟨.debug, .circle,
    "Turn " ++ Text.natural (t + 1) ++ ": " ++
      (Value.list ((turn ps t).map fun m => .tuple (Row.ofFixture m))).quoted⟩

/-- The record of the whole schedule. -/
def openingRecord (ps : List Value) : Record :=
  ⟨.info, .circle,
    "Generating " ++ Text.whole (lastTurn ps) ++ " turns for " ++ Text.natural ps.length ++
      " participants"⟩

/-- Makes the schedule. An odd number of participants have to serve as keys, since their matches
are counted. -/
def plan (ps : List Value) : Outcome (List Fixture) := do
  Outcome.writeAll (openingRecord ps :: (List.range (seats ps.length - 1)).map (turnRecord ps))
  if ps.length % 2 = 0 then return rotation ps
  Balance.repair (.int (lastTurn ps)) (rotation ps)

end Matchday.Circle
