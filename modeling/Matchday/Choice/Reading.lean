/-
# Reading a choice

A member of a choice is given as itself, by its name in any case, or by its number as any kind of
number. A member of another choice counts by its number. Whatever names no member is turned away.
-/
import Matchday.Outcome
import Matchday.Text.Capitals
import Matchday.Value.Same

namespace Matchday

/-- A choice as it is read: its members, what they are called, and which values are members. -/
structure Choice (β : Type) where
  kind : Kind
  members : List β
  name : β → String
  number : β → Nat
  member? : Value → Option β

namespace Choice

variable {β : Type}

/-- The choice of a rule for referees. -/
def ofRule : Choice RefereeRule where
  kind := .rule
  members := RefereeRule.all
  name := RefereeRule.name
  number := RefereeRule.number
  member?
    | .rule r => some r
    | _ => none

/-- The choice of a half. -/
def ofHalf : Choice Half where
  kind := .half
  members := Half.all
  name := Half.name
  number := Half.number
  member?
    | .half h => some h
    | _ => none

/-- The member that a value names. -/
def find? (c : Choice β) (v : Value) : Option β :=
  match c.member? v with
  | some b => some b
  | none =>
    match v with
    | .text s => c.members.find? (c.name · == Text.capitals s)
    | _ => c.members.find? fun b => Value.int (c.number b) == v

/-- Reads a member, or turns the value away. -/
def read (c : Choice β) (v : Value) : Outcome β :=
  match c.find? v with
  | some b => .ok b
  | none => .reject (.undefined c.kind v)

end Choice

/-- Reads a rule for referees. -/
def RefereeRule.read (v : Value) : Outcome RefereeRule := Choice.ofRule.read v

/-- Reads a half. -/
def Half.read (v : Value) : Outcome Half := Choice.ofHalf.read v

/-- **Names are read back.** -/
theorem RefereeRule.read_name (r : RefereeRule) : read (.text r.name) = .ok r := by
  cases r <;> rfl

end Matchday
