/-
# The next turn

Turns may be played in any order. To keep the streaks short, the turn to follow the last one is
picked among the open ones by three questions, each asked only if the one before has no answer:

* Is there a turn in which every match has exactly one of the participants who were at home last
  (`apart?`)? They all play then, and none of them against another.
* Which turn has the most of them as guests (`mostVisiting?`)? A turn with none of them does not
  count.
* Which turn continues the fewest streaks (`leastCarried?`)?

Among equally good turns the one that appears first is picked. The first question looks players up
in a set, which takes keys; the others compare players one by one.
-/
import Matchday.Pick
import Matchday.Source
import Matchday.Streak

namespace Matchday.NextTurn

/-! ## 1. The three questions -/

section Questions

variable {τ α : Type} [BEq τ] [Equality τ] [BEq α] [Equality α]

/-- Exactly one participant of the match is on the team. -/
def splits (team : List α) (m : Match τ α) : Bool :=
  team.contains m.home != team.contains m.guest

/-- The participants who are at home in a turn. -/
def homeTeam (ms : List (Match τ α)) (t : τ) : List α := Schedule.homes (Schedule.ofTurn ms t)

/-- Every match of the turn has exactly one participant on the team. -/
def isApart (team : List α) (ms : List (Match τ α)) (t : τ) : Bool :=
  (Schedule.ofTurn ms t).all (splits team)

/-- How many of the team are guests in the turn. -/
def visiting (team : List α) (ms : List (Match τ α)) (t : τ) : Nat :=
  (Schedule.ofTurn ms t).countP fun m => team.contains m.guest

/-- Everybody who plays in a turn: those at home, then the guests. -/
def present (ms : List (Match τ α)) (t : τ) : List α :=
  let turn := Schedule.ofTurn ms t
  turn.map (·.home) ++ turn.map (·.guest)

/-- The streaks of some players that a turn continues, at home and as guests. -/
def carried (players : List α) (ms : List (Match τ α)) (t : τ) : Nat :=
  let turn := Schedule.ofTurn ms t
  players.foldr (fun p n => Streak.current .home p turn + Streak.current .guest p turn + n) 0

/-- The turn with the most of those at home last as guests, if any turn has one. -/
def mostVisiting? (ms : List (Match τ α)) (last : τ) (turns : List τ) : Option τ :=
  let team := homeTeam ms last
  Pick.greatest (visiting team ms) (turns.filter (0 < visiting team ms ·))

/-- The turn that continues the fewest streaks of those who played last. -/
def leastCarried? (ms : List (Match τ α)) (last : τ) (turns : List τ) : Option τ :=
  Pick.least (carried (present ms last) ms) turns

/-- The turns of a schedule that are not among the given ones. -/
def openTurns (ms : List (Match τ α)) (placed : List τ) : List τ :=
  (Schedule.turns ms).filter (!placed.contains ·)

/-- Some turn is picked as long as one is open. -/
theorem leastCarried?_eq_none_iff (ms : List (Match τ α)) (last : τ) (turns : List τ) :
    leastCarried? ms last turns = none ↔ turns = [] := by simp [leastCarried?]

end Questions

/-! ## 2. Looking players up in a set -/

/-- Every match has exactly one participant on the team. Stops at the first that does not. -/
def allSplit (team : List Value) : List Fixture → Except Fault Bool
  | [] => .ok true
  | m :: ms => do
    m.home.asSought
    m.guest.asSought
    if splits team m then allSplit team ms else return false

/-- The first turn whose matches all split the team. The fault stands behind the turns and is met
when none of them is picked. -/
def firstApart (team : List Value) (ms : List Fixture) (fault : Option Fault) :
    List Value → Except Fault (Option Value)
  | [] =>
    match fault with
    | some e => .error e
    | none => .ok none
  | t :: ts => do
    if ← allSplit team (Schedule.ofTurn ms t) then return some t
    else firstApart team ms fault ts

/-- The first turn apart from the last one. -/
def apart? (ms : List Fixture) (last : Value) (turns : List Value) (fault : Option Fault) :
    Except Fault (Option Value) := do
  let team := homeTeam ms last
  let _ ← team.mapM Value.asKey
  firstApart team ms fault turns

/-- Players who serve as keys are looked up without fault. -/
theorem allSplit_of_keys {team : List Value} {ms : List Fixture}
    (h : ∀ m ∈ ms, m.home.isKey = true ∧ m.guest.isKey = true) :
    allSplit team ms = .ok (ms.all (splits team)) := by
  induction ms with
  | nil => rfl
  | cons m ms ih =>
    have hm := h m (by simp)
    have ih := ih fun m hm => h m (by simp [hm])
    rw [allSplit, Value.asSought_of_isKey hm.1, Value.asSought_of_isKey hm.2]
    cases hs : splits team m <;> simp [bind, Except.bind, pure, Except.pure, hs, ih]

/-! ## 3. Rows -/

/-- One of the three questions. -/
inductive Question where
  | apart
  | visiting
  | carried
deriving DecidableEq

/-- The answer to a question about a schedule in rows, among its turns that are not excluded. Rows
of the last turn are read first, then all others. -/
def ask (q : Question) (last : Value) (excluded : Source) (rows : List Row) :
    Except Fault (Option Value) := do
  let chosen ← rows.filterM fun r => return equals (← r.part 0) last
  for r in chosen do
    let m ← r.fixture
    if q = .apart then m.home.asKey
  let ms ← rows.mapM (·.fixture >>= Row.timed)
  let (turns, fault) := excluded.missing (Schedule.turns ms)
  match q, fault with
  | .apart, _ => apart? ms last turns fault
  | _, some e => .error e
  | .visiting, none => return mostVisiting? ms last turns
  | .carried, none => return leastCarried? ms last turns

end Matchday.NextTurn
