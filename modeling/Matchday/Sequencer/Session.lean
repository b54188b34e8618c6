/-
# Sessions with a sequencer

One sequencer may be asked several times: to put its schedule in order, to swap the matches of a
turn, to change its switches, or to show what it has. Between the requests it keeps its state.
-/
import Matchday.Sequencer
import Matchday.Session

namespace Matchday.Sequencer

/-- A request to a sequencer. -/
inductive Request where
  | sequence
  | shorten (turn : Value)
  /-- Sets the switches that are given. -/
  | switch (prefersApart shortensStreaks : Option Bool)
  | show

/-- What a sequencer answers. -/
inductive Answer where
  | done
  /-- Rows, in order. -/
  | rows (rows : List Row)
  | state (placed : List Value) (working : List Row) (result : List Fixture)

/-- A sequencer with other switches. -/
def switched (prefersApart shortensStreaks : Option Bool) (s : Sequencer) : Sequencer :=
  { s with
    prefersApart := prefersApart.getD s.prefersApart
    shortensStreaks := shortensStreaks.getD s.shortensStreaks }

/-- Answers a request. -/
def answer : Request → Action Sequencer Answer
  | .sequence => do
    let ms ← sequence
    return .rows (ms.map Row.ofFixture)
  | .shorten t => do
    shorten t
    let s ← Action.state
    return .rows s.working.rows
  | .switch prefersApart shortensStreaks => do
    Action.change (switched prefersApart shortensStreaks)
    return .done
  | .show => do
    let s ← Action.state
    return .state s.placed s.working.rows s.result

end Matchday.Sequencer
