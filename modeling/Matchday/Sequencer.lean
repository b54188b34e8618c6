/-
# Putting turns in order

A sequencer takes a schedule and plays its turns in another order, so that participants have
fewer streaks. It starts with the first turn, and places one turn after the other by the three
questions of `NextTurn`. Which matches are played and in which turn does not change. On request,
matches of the turn to be placed are first played the other way round where that shortens a streak.

The sequencer works on a copy of the schedule and keeps three things that can be looked at
between requests: the copy as it stands (`working`), the turns placed so far (`placed`) and their
matches (`result`). A request may fail half way, and then these show how far it came.

Whether a match is swapped is decided from the current streaks of its two participants, read off
the result (`wantsSwap`): it is, if the one at home has played at home at least twice in a row or
the guest at least twice as guest; or if the one at home has the longer streak at home. If instead
the one at home has the longer streak as guest, it is not. In what remains it is swapped if the
streaks at home are equal and one of the two had the same role in the turn placed last.
-/
import Matchday.NextTurn

namespace Matchday

/-- A sequencer with its schedule, its two switches, and what it has done so far. -/
structure Sequencer where
  participants : List Value
  source : Sheet
  /-- Ask first for a turn apart from the last one. -/
  prefersApart : Bool
  /-- Swap matches to shorten streaks. -/
  shortensStreaks : Bool
  working : Sheet
  placed : List Value
  result : List Fixture

namespace Sequencer

/-- A sequencer that has done nothing yet. -/
def create (participants : List Value) (source : Sheet) (prefersApart shortensStreaks : Bool) :
    Sequencer :=
  ⟨participants, source, prefersApart, shortensStreaks, .empty, [], []⟩

/-- A sequencer that is to start from its schedule. -/
def restarted (s : Sequencer) : Sequencer :=
  { s with working := s.source, placed := [], result := [] }

/-- A sequencer with one more turn placed. -/
def place (t : Value) (s : Sequencer) : Sequencer :=
  { s with
    placed := s.placed ++ [t]
    result := s.result ++ Schedule.ofTurn s.working.fixtures t }

/-! ## 1. Swapping -/

/-- The current streaks of a participant, at home and as guest. -/
structure Form where
  home : Nat
  guest : Nat
deriving DecidableEq

/-- The current streaks of a participant in some matches. -/
def form (ms : List Fixture) (p : Value) : Form :=
  ⟨Streak.current .home p ms, Streak.current .guest p ms⟩

/-- The form of a player, who has to be one of the participants. -/
def formOf (participants : List Value) (ms : List Fixture) (p : Value) : Except Fault Form := do
  p.asKey
  if participants.contains p then return form ms p else .error (.misused .key)

/-- One of the two players had the same role in the turn placed last. -/
def repeatsRole (placed : List Value) (working : List Fixture) (m : Fixture) :
    Except Fault Bool :=
  match placed.getLast? with
  | none => .error (.misused .index)
  | some last =>
    let previous := Schedule.ofTurn working last
    .ok (previous.any (equals ·.home m.home) || previous.any (equals ·.guest m.guest))

/-- Whether a match between players of these forms is played the other way round. Only the last
case asks whether a role is repeated. -/
def wantsSwap (home guest : Form) (repeated : Except Fault Bool) : Except Fault Bool :=
  if 2 ≤ home.home || 2 ≤ guest.guest then .ok true
  else if guest.home < home.home then .ok true
  else if guest.guest < home.guest then .ok false
  else if home.home = guest.home then repeated
  else .ok false

/-- Whether a match of the working copy is to be swapped. -/
def decides (s : Sequencer) (working : List Fixture) (m : Fixture) : Except Fault Bool := do
  let home ← formOf s.participants s.result m.home
  let guest ← formOf s.participants s.result m.guest
  wantsSwap home guest (repeatsRole s.placed working m)

/-- What a pass over some matches has come to: the matches as they are now, those that were
swapped, as they were before, and the fault that ended it. -/
structure Pass where
  working : List Fixture
  swapped : List Fixture
  fault : Option Fault

/-- A pass over one match more, in front, which was swapped or not. -/
def Pass.cons (m : Fixture) (swap : Bool) (p : Pass) : Pass :=
  if swap then ⟨m.swapped :: p.working, m :: p.swapped, p.fault⟩
  else ⟨m :: p.working, p.swapped, p.fault⟩

/-- Goes through some matches and swaps those of a turn that the decision asks for. Each decision
sees all matches as they stand then: those that have been passed, which `before` lists from the
nearest on, and those still to come. -/
def swapTurn (wants : List Fixture → Fixture → Except Fault Bool) (t : Value)
    (before : List Fixture) : List Fixture → Pass
  | [] => ⟨[], [], none⟩
  | m :: rest =>
    if equals m.turn t then
      match wants (before.reverse ++ m :: rest) m with
      | .error e => ⟨m :: rest, [], some e⟩
      | .ok swap =>
        (swapTurn wants t ((if swap then m.swapped else m) :: before) rest).cons m swap
    else (swapTurn wants t (m :: before) rest).cons m false

/-- The record of a swap. -/
def swapRecord (m : Fixture) : Record :=
  ⟨.debug, .sequencer,
    "Swapping home/guest of " ++ m.home.plain ++ " - " ++ m.guest.plain ++ " in turn " ++
      m.turn.plain⟩

/-- The pass over the whole working copy. It gets as far as the first row that is no match. -/
def pass (s : Sequencer) (t : Value) : Pass :=
  let p := swapTurn s.decides t [] s.working.fixtures
  match p.fault with
  | none => if s.working.unread.isEmpty then p else { p with fault := some (.misused .shape) }
  | some _ => p

/-- Swaps matches of a turn. While exactly one turn is placed there is nothing to compare with,
and nothing is done. -/
def shorten (t : Value) : Action Sequencer Unit := do
  let s ← Action.state
  if s.placed.length = 1 then return
  let _ ← Outcome.ofExcept (s.participants.mapM Value.asKey)
  let p := s.pass t
  Action.change fun s => { s with working := { s.working with fixtures := p.working } }
  Outcome.writeAll (p.swapped.map swapRecord)
  match p.fault with
  | none => return
  | some e => Outcome.fail e

/-! ## 2. Placing turns -/

/-- An answer that names a turn. Where the turn picked is nothing at all, the question counts as not
answered. -/
def named (answer : Option Value) : Option Value :=
  match answer with
  | some .none => none
  | _ => answer

/-- The turn to follow the last one: the first that a question names, or else the first open one. -/
def nextTurn? (s : Sequencer) (last : Value) : Except Fault (Option Value) := do
  let ms := s.working.fixtures
  let turns := NextTurn.openTurns ms s.placed
  let apart ← if s.prefersApart then NextTurn.apart? ms last turns none else .ok none
  return named apart <|> named (NextTurn.mostVisiting? ms last turns) <|>
    named (NextTurn.leastCarried? ms last turns) <|> turns.head?

/-- The record of a turn placed. -/
def placingRecord (t last : Value) : Record :=
  ⟨.debug, .sequencer, "Turn " ++ t.plain ++ " placed after turn " ++ last.plain⟩

/-- Places one more turn, if one has been placed and one is open. -/
def placeNext : Action Sequencer Unit := do
  let s ← Action.state
  match s.placed.getLast? with
  | none => return
  | some last =>
    match ← Outcome.ofExcept (s.nextTurn? last) with
    | none => return
    | some t =>
      if s.shortensStreaks then shorten t
      Outcome.writeAll [placingRecord t last]
      Action.change (place t)

/-- Places a number of turns. -/
def placeAll : Nat → Action Sequencer Unit
  | 0 => return
  | k + 1 => do
    placeNext
    placeAll k

/-- The turns of a sheet. All its rows have to be matches with a turn that serves as a key. -/
def turnsOf (sheet : Sheet) : Except Fault (List Value) := do
  let ms ← sheet.fixtures.mapM Row.timed
  if sheet.unread.isEmpty then return Schedule.turns ms else .error (.misused .shape)

/-- The record of the order found. -/
def orderRecord (placed : List Value) : Record :=
  ⟨.info, .sequencer, "Optimized turn sequence: " ++ (Value.list placed).quoted⟩

/-- Puts all turns in order, from the start. -/
def sequence : Action Sequencer (List Fixture) := do
  Action.change restarted
  let s ← Action.state
  match ← Outcome.ofExcept (turnsOf s.source) with
  | [] => return []
  | t :: ts =>
    Action.change (place t)
    placeAll ts.length
    let s ← Action.state
    Outcome.writeAll [orderRecord s.placed]
    return s.result

end Sequencer
end Matchday
