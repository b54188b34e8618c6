/-
# Sources

Participants, referees and lists of turns to leave out are handed in as collections of several
sorts. Whoever takes the items in order asks for `items`; who only asks whether something is in
the collection uses `holds`. The sorts differ in what they allow. A set has no order of its own,
which a planner has to know (`unorderedName?`). A stream gives each item once: what was looked at
is gone. A text is a collection of its characters, and what it holds are its sections.
-/
import Matchday.Outcome
import Matchday.Value.Same

namespace Matchday

/-- A collection that was handed in. -/
inductive Source where
  /-- A value, which may be a collection or not. -/
  | value (v : Value)
  /-- A set that cannot change. -/
  | frozen (items : List Value)
  /-- The keys of a dictionary. -/
  | keys (items : List Value)
  /-- The values of a dictionary. -/
  | values (items : List Value)
  | stream (items : List Value)

namespace Source

/-! ## 1. Items -/

/-- The characters of a text, each as a text. -/
def characters (s : String) : List Value := s.toList.map fun c => .text (String.singleton c)

/-- The items of a collection, in order. -/
def items : Source → Except Fault (List Value)
  | .value (.text s) => .ok (characters s)
  | .value (.tuple vs) | .value (.list vs) | .value (.set vs) => .ok vs
  | .value (.dict entries) => .ok (entries.map (·.1))
  | .value _ => .error (.misused .kind)
  | .frozen vs | .keys vs | .values vs | .stream vs => .ok vs

/-- How many items a collection has. A stream does not know. -/
def size : Source → Except Fault Nat
  | .stream _ => .error (.misused .kind)
  | s => s.items.map List.length

/-- What is left of a collection once all its items have been taken. -/
def spent : Source → Source
  | .stream _ => .stream []
  | s => s

/-- The sort of a collection without an order of its own. -/
def unorderedName? : Source → Option String
  | .value (.set _) => some "set"
  | .value (.dict _) => some "dict"
  | .frozen _ => some "frozenset"
  | .keys _ => some "dict_keys"
  | _ => none

/-! ## 2. Membership -/

/-- The second text starts with the first. -/
def startsWith : List Char → List Char → Bool
  | [], _ => true
  | _ :: _, [] => false
  | c :: cs, d :: ds => c == d && startsWith cs ds

/-- The first text is a section of the second. -/
def isSection (cs : List Char) : List Char → Bool
  | [] => cs.isEmpty
  | d :: ds => startsWith cs (d :: ds) || isSection cs ds

/-- A value is looked up by key. -/
def holdsKey (vs : List Value) (v : Value) : Except Fault Bool := do
  v.asKey
  return vs.contains v

/-- A value is looked for in a set. -/
def holdsItem (vs : List Value) (v : Value) : Except Fault Bool := do
  v.asSought
  return vs.contains v

/-- Whether a collection holds a value, and what is left of it after the search. -/
def holds (s : Source) (v : Value) : Except Fault Bool × Source :=
  match s with
  | .value (.text t) =>
    match v with
    | .text u => (.ok (isSection u.toList t.toList), s)
    | _ => (.error (.misused .kind), s)
  | .value (.tuple vs) | .value (.list vs) | .values vs => (.ok (vs.contains v), s)
  | .value (.set vs) | .frozen vs => (holdsItem vs v, s)
  | .keys vs => (holdsKey vs v, s)
  | .value (.dict entries) => (holdsKey (entries.map (·.1)) v, s)
  | .value _ => (.error (.misused .kind), s)
  | .stream vs => (.ok (vs.contains v), .stream ((vs.dropWhile (· != v)).drop 1))

/-- The values that a collection does not hold, in order, up to the first one that cannot be
looked up in it; then the fault. -/
def missing : Source → List Value → List Value × Option Fault
  | _, [] => ([], none)
  | s, v :: vs =>
    match s.holds v with
    | (.error e, _) => ([], some e)
    | (.ok true, s) => missing s vs
    | (.ok false, s) => let (ws, e) := missing s vs; (v :: ws, e)

/-- A list never refuses to be searched. -/
theorem missing_list (xs vs : List Value) :
    missing (.value (.list xs)) vs = (vs.filter (!xs.contains ·), none) := by
  induction vs with
  | nil => rfl
  | cons v vs ih =>
    cases h : xs.contains v <;> simp only [missing, holds, h, ih, List.filter_cons] <;> rfl

end Source
end Matchday
