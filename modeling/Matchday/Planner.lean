/-
# Planning a round

A planner holds the participants of a round and its settings, and hands out legs. Participants are
accepted as an ordered collection of different keys of the kind the planner was made for; what is
not accepted changes nothing. A leg is asked for with a rule for referees and one of the two
halves.

The schedule comes from the ideal table if there is one and the settings allow it, otherwise from
the circle, put in order by a sequencer if the number of participants lies in the range the
settings give. Its turns are then numbered from one in the order they are played, whatever numbers
the schedule came with, and every match gets its referee. The mirrored half repeats the first,
with the turns numbered on, every match the other way round, and a referee who goes with the role
moved to the new holder of that role.

Asking for a leg leaves the planner as it is, so a leg depends on the settings and the
participants of the moment and on nothing else.
-/
import Matchday.Circle
import Matchday.Ideal
import Matchday.Leg
import Matchday.Rota
import Matchday.Sequencer
import Matchday.Settings

namespace Matchday

/-- A planner: the kinds of its participants and referees, its settings and its participants. -/
structure Planner where
  participantKind : Kind
  refereeKind : Kind
  settings : Settings
  participants : List Value

namespace Planner

/-! ## 1. Setting up -/

/-- Makes a planner. Every participant has to be able to be a referee, and the settings have to be
valid. -/
def create (participantKind refereeKind : Kind) (settings : Settings) : Outcome Planner :=
  if participantKind.isWithin refereeKind then do
    settings.validate
    return ⟨participantKind, refereeKind, settings, []⟩
  else .reject (.kindMismatch participantKind refereeKind)

/-- The participants in a collection, or the reason why they are not accepted. -/
def accept (kind : Kind) (source : Source) : Outcome (List Value) :=
  match source.unorderedName? with
  | some name => .reject (.unordered name)
  | none => do
    let items ← Outcome.ofExcept source.items
    match items.find? (!·.isOf kind) with
    | some v => .reject (.wrongKind v kind)
    | none =>
      match Value.firstObstacle? items with
      | some part => .reject (.notKey part)
      | none =>
        if items.eraseDups.length = items.length then return items
        else .reject (.duplicates items)

/-- Sets the participants, if they are accepted. -/
def setParticipants (source : Source) : Action Planner Unit := do
  let p ← Action.state
  let items ← accept p.participantKind source
  Action.change fun p => { p with participants := items }

/-- How many matches every participant plays in a leg. -/
def matchesPerLeg (p : Planner) : Nat := p.participants.length - 1

/-! ## 2. The schedule -/

/-- The number of participants lies in a range. The upper bound is compared only if the lower one
is kept. -/
def isWithin (lower upper : Value) (n : Nat) : Except Fault Bool :=
  match lower.atMost? (.int n) with
  | none => .error (.misused .kind)
  | some false => .ok false
  | some true =>
    match (Value.int n).atMost? upper with
    | none => .error (.misused .kind)
    | some kept => .ok kept

/-- The schedule of the circle, put in order if the settings say so. -/
def circled (s : Settings) (ps : List Value) : Outcome (List Fixture) := do
  let ms ← Circle.plan ps
  if ← Outcome.ofExcept (isWithin s.sequencedFrom s.sequencedTo ps.length) then
    let sequencer :=
      Sequencer.create ps (.ofFixtures ms) s.prefersApart.isOn s.shortensStreaks.isOn
    (Sequencer.sequence sequencer).1
  else return ms

/-- The record of doing without an ideal table. -/
def fallbackRecord (n : Nat) : Record :=
  ⟨.info, .planner,
    "No ideal table for " ++ Text.natural n ++ " participants, using round robin system"⟩

/-- The schedule of a round. -/
def schedule (s : Settings) (ps : List Value) : Outcome (List Fixture) :=
  if s.usesIdeal.isOn then
    (Ideal.plan ps).orElseOn .participantCount do
      Outcome.writeAll [fallbackRecord ps.length]
      circled s ps
  else circled s ps

/-- The schedule with its turns numbered from one, in the order they are played. -/
def renumbered (ms : List Fixture) : List (Match Nat Value) :=
  let turns := Schedule.turns ms
  ms.map (·.map (fun t => turns.idxOf t + 1) id)

/-! ## 3. Legs -/

/-- The matches of a schedule with their referees, in playing order. -/
abbrev Draft := List (Match Nat Value × Value)

/-- The pairing of a match and its referee. -/
def paired (m : Match Nat Value) (referee : Value) : Pairing :=
  ⟨.int m.turn, m.home, m.guest, referee⟩

/-- The first leg. -/
def firstLeg (draft : Draft) : Leg := draft.map fun d => paired d.1 d.2

/-- The referee of a match played the other way round. -/
def mirroredReferee (rule : RefereeRule) (m : Match Nat Value) (referee : Value) : Value :=
  match rule with
  | .home => m.guest
  | .guest => m.home
  | _ => referee

/-- The mirrored leg: the same matches the other way round, after all turns of the first leg. -/
def mirroredLeg (rule : RefereeRule) (draft : Draft) : Leg :=
  let turns := (Schedule.turns (draft.map (·.1))).length
  draft.map fun d =>
    paired (d.1.swapped.map (· + turns) id) (mirroredReferee rule d.1 d.2)

/-- A leg of a draft. -/
def legOf (rule : RefereeRule) (draft : Draft) : Half → Leg
  | .first => firstLeg draft
  | .mirrored => mirroredLeg rule draft

/-- The participants are enough for a round under the rule. -/
def requireCount (rule : RefereeRule) (n : Nat) : Outcome Unit :=
  if n < Limits.smallestRound then .reject (.tooFew n)
  else if rule = .other ∧ n < Limits.smallestRoundWithReferee then .reject (.tooFewForReferee n)
  else .ok ()

/-- The record of a plan being made. -/
def planRecord (n : Nat) : Record :=
  ⟨.debug, .planner, "Creating combinations for " ++ Text.natural n ++ " participants"⟩

/-- Plans the matches of a round and their referees. -/
def draft (p : Planner) (rule : RefereeRule) : Outcome Draft := do
  let ps := p.participants
  requireCount rule ps.length
  Outcome.writeAll [planRecord ps.length]
  let ms := renumbered (← schedule p.settings ps)
  let rota ← Rota.create (some rule) (some (.value (.tuple ps)))
  let referees ← (Rota.assignAll (ms.map (·.map (fun k : Nat => Value.int k) id)) rota).1
  return ms.zip referees

/-- The rule that a value asks for. Nothing asks for that of the settings. -/
def ruleFor (p : Planner) : Value → Outcome RefereeRule
  | .none => RefereeRule.read p.settings.refereeRule
  | v => RefereeRule.read v

/-- Plans a leg, for a rule and a half as they are asked for. -/
def leg (p : Planner) (rule half : Value) : Outcome Leg := do
  let rule ← p.ruleFor rule
  let half ← Half.read half
  let draft ← p.draft rule
  return legOf rule draft half

end Planner
end Matchday
