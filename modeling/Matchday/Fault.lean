/-
# Faults

Why a plan is not made. There are two sorts of faults. A rejection is a finding about the round:
too few participants, a choice that is not defined, a participant given twice. It belongs to one
of four families, has a message for whoever asked, and a report for the log. A misuse is a value
handed in where it cannot be used, such as a match of two parts or a number in place of a list; it
has no message. Apart from these stands the referee duty that is set up without any referees.
-/
import Matchday.Limits
import Matchday.Value.Key
import Matchday.Value.Written

namespace Matchday

/-! ## 1. Rejections -/

/-- The families of rejections. -/
inductive Family where
  | participantCount
  | outOfRange
  | incompatibleKinds
  | participants
deriving DecidableEq

/-- A finding that rules a round out. -/
inductive Rejection where
  /-- Not enough participants for a round. -/
  | tooFew (count : Nat)
  /-- Not enough participants for somebody to be left as referee. -/
  | tooFewForReferee (count : Nat)
  /-- No ideal table has this many participants. -/
  | noTable (count : Nat)
  /-- Every referee plays in the match. -/
  | nobodyFree (home guest : Value)
  /-- No member of the choice has this name or number. -/
  | undefined (choice : Kind) (value : Value)
  | negativeMinimum (minimum : Value)
  | invertedRange (minimum maximum : Value)
  /-- A referee of the one kind may be no participant of the other. -/
  | kindMismatch (participant referee : Kind)
  /-- The collection has no order of its own. -/
  | unordered (collection : String)
  | wrongKind (participant : Value) (wanted : Kind)
  /-- A participant cannot serve as a key, because of a part of this kind. -/
  | notKey (part : Kind)
  | duplicates (participants : List Value)

namespace Rejection

/-- The family of a rejection. -/
def family : Rejection → Family
  | .tooFew _ | .tooFewForReferee _ | .noTable _ | .nobodyFree _ _ => .participantCount
  | .undefined _ _ | .negativeMinimum _ | .invertedRange _ _ => .outOfRange
  | .kindMismatch _ _ => .incompatibleKinds
  | .unordered _ | .wrongKind _ _ | .notKey _ | .duplicates _ => .participants

/-- What cannot serve as a key, in words. -/
def keyText (part : Kind) : String := "unhashable type: \x27" ++ part.name ++ "\x27"

/-- The message of a rejection. -/
def message : Rejection → String
  | .tooFew count =>
    "Round robin requires at least " ++ Text.natural Limits.smallestRound ++
      " participants, got " ++ Text.natural count
  | .tooFewForReferee count =>
    "Round robin with a referee from the round requires at least " ++
      Text.natural Limits.smallestRoundWithReferee ++ " participants, got " ++ Text.natural count
  | .noTable count =>
    "The number of participants must be between " ++ Text.natural Limits.idealFrom ++ " and " ++
      Text.natural Limits.idealTo ++ ", got " ++ Text.natural count
  | .nobodyFree home guest =>
    "No referee left who does not play in " ++ home.plain ++ " - " ++ guest.plain
  | .undefined choice value => value.quoted ++ " is not a valid " ++ choice.name
  | .negativeMinimum minimum =>
    "optimizer_min_participants must not be negative, got " ++ minimum.plain
  | .invertedRange minimum maximum =>
    "optimizer range " ++ minimum.plain ++ ".." ++ maximum.plain ++ " is inverted"
  | .kindMismatch participant referee =>
    "A referee of type " ++ referee.name ++ " can not hold a participant of type " ++
      participant.name
  | .unordered collection => "Participants must be an ordered sequence, not " ++ collection
  | .wrongKind participant wanted =>
    "Participant " ++ participant.quoted ++ " is no " ++ wanted.name
  | .notKey part => "Participants must be hashable: " ++ keyText part
  | .duplicates participants => "Duplicate participants in " ++ (Value.tuple participants).quoted

/-- The whole part of a number that is reported. An infinity has none; the record is made with it as
it is, and cannot be written out. -/
def countText (v : Value) : String := v.wholeText?.getD v.plain

/-- What the log says about a rejection. -/
def report : Rejection → String
  | .tooFew count => "Too few participants: " ++ Text.natural count
  | .tooFewForReferee _ => "Too few participants for a referee from the round"
  | .noTable count =>
    "Invalid participant count for ideal round robin: " ++ Text.natural count
  | .nobodyFree home guest => "No referee available for " ++ home.plain ++ " - " ++ guest.plain
  | .undefined choice value => "Undefined " ++ choice.name ++ ": " ++ value.quoted
  | .negativeMinimum minimum => "Negative optimizer minimum: " ++ countText minimum
  | .invertedRange minimum maximum =>
    "Inverted optimizer range: " ++ countText minimum ++ ".." ++ countText maximum
  | .kindMismatch participant referee =>
    "Participant type " ++ participant.name ++ " is no " ++ referee.name
  | .unordered collection => "Unordered participants: " ++ collection
  | .wrongKind participant _ => "Participant of wrong type: " ++ participant.quoted
  | .notKey part => "Unhashable participants: " ++ keyText part
  | .duplicates participants => "Duplicate participants: " ++ (Value.tuple participants).quoted

end Rejection

/-! ## 2. Misuses and faults -/

/-- How a value handed in cannot be used. -/
inductive Misuse where
  /-- It is of a kind that does not allow this. -/
  | kind
  /-- It has too few or too many parts. -/
  | shape
  /-- It is no key of what it was looked up in. -/
  | key
  /-- It lies outside of what it was to be taken from. -/
  | index
  /-- It lacks a property that was asked of it. -/
  | attribute
  /-- Nothing is defined for it. -/
  | undecided
deriving DecidableEq

/-- Why something was not done. -/
inductive Fault where
  | rejected (r : Rejection)
  | misused (m : Misuse)
  /-- Referees are needed and none were given. -/
  | refereesRequired

namespace Fault

/-- The message of a fault, if it has one. -/
def message? : Fault → Option String
  | .rejected r => some r.message
  | .misused _ => none
  | .refereesRequired => some "referees are required to assign another referee"

end Fault

/-! ## 3. Keys -/

/-- A value has to serve as a key. -/
def Value.asKey (v : Value) : Except Fault Unit :=
  if v.isKey then .ok () else .error (.misused .kind)

/-- A value that is looked for in a set has to serve as a key. A set can be looked for as well, and
is not found, since sets hold keys only. -/
def Value.asSought : Value → Except Fault Unit
  | .set _ => .ok ()
  | v => v.asKey

/-- Keys can be looked for. -/
theorem Value.asSought_of_isKey {v : Value} (h : v.isKey = true) : v.asSought = .ok () := by
  cases v <;> simp_all [asSought, asKey]

end Matchday
