/-
# Settings

How a round is planned when nothing else is asked for: the rule for referees, whether ideal tables
are used, for which numbers of participants the turns are put in order, and the two switches of
the sequencer. Settings are made from named entries and written back as such.

Only the rule is read when settings are made; everything else is taken as it comes, and any
setting may be given any other value later. Whether the range of the sequencer makes sense is a
question of its own (`validate`). It compares the two bounds as they are, so bounds without an
order are a misuse.
-/
import Matchday.Choice.Reading
import Matchday.Value.Order

namespace Matchday

/-- The settings of a planner. -/
structure Settings where
  refereeRule : Value
  usesIdeal : Value
  sequencedFrom : Value
  sequencedTo : Value
  shortensStreaks : Value
  prefersApart : Value

/-- One of the settings. -/
inductive Setting where
  | refereeRule
  | usesIdeal
  | sequencedFrom
  | sequencedTo
  | shortensStreaks
  | prefersApart
deriving DecidableEq

namespace Setting

/-- All settings. -/
def all : List Setting :=
  [.refereeRule, .usesIdeal, .sequencedFrom, .sequencedTo, .shortensStreaks, .prefersApart]

/-- The name of a setting among entries. -/
def name : Setting → String
  | .refereeRule => "referee_type"
  | .usesIdeal => "use_ideal_system"
  | .sequencedFrom => "optimizer_min_participants"
  | .sequencedTo => "optimizer_max_participants"
  | .shortensStreaks => "avoid_consecutive_home_guest"
  | .prefersApart => "prefer_home_teams_not_playing_each_other"

/-- The setting with a name. -/
def ofName? (s : String) : Option Setting := all.find? (·.name == s)

/-- Names are read back. -/
@[simp] theorem ofName?_name (k : Setting) : ofName? k.name = some k := by cases k <;> decide

end Setting

/-- Values by name. -/
abbrev Entries := List (String × Value)

namespace Settings

/-! ## 1. Single settings -/

/-- The settings of a planner that was given none. -/
def default : Settings where
  refereeRule := .rule .nobody
  usesIdeal := .bool true
  sequencedFrom := .int Limits.sequencedFrom
  sequencedTo := .int Limits.sequencedTo
  shortensStreaks := .bool false
  prefersApart := .bool false

/-- The value of a setting. -/
def get (s : Settings) : Setting → Value
  | .refereeRule => s.refereeRule
  | .usesIdeal => s.usesIdeal
  | .sequencedFrom => s.sequencedFrom
  | .sequencedTo => s.sequencedTo
  | .shortensStreaks => s.shortensStreaks
  | .prefersApart => s.prefersApart

/-- Gives a setting a value. -/
def set (s : Settings) (k : Setting) (v : Value) : Settings :=
  match k with
  | .refereeRule => { s with refereeRule := v }
  | .usesIdeal => { s with usesIdeal := v }
  | .sequencedFrom => { s with sequencedFrom := v }
  | .sequencedTo => { s with sequencedTo := v }
  | .shortensStreaks => { s with shortensStreaks := v }
  | .prefersApart => { s with prefersApart := v }

/-- Gives the setting with a name a value; any other name changes nothing. -/
def setNamed (s : Settings) (name : String) (v : Value) : Settings :=
  match Setting.ofName? name with
  | some k => s.set k v
  | none => s

/-- Equal in all settings. -/
def same (s t : Settings) : Bool := Setting.all.all fun k => s.get k == t.get k

instance : BEq Settings := ⟨same⟩

/-- A setting holds what it was given, and the others are kept. -/
theorem get_set (s : Settings) (k l : Setting) (v : Value) :
    (s.set k v).get l = if k = l then v else s.get l := by
  cases k <;> cases l <;> rfl

/-! ## 2. Validation -/

/-- Checks that the range of the sequencer starts at zero or above and is not inverted. -/
def validate (s : Settings) : Outcome Unit :=
  match s.sequencedFrom.before? (.int 0) with
  | none => .misuse .kind
  | some true => .reject (.negativeMinimum s.sequencedFrom)
  | some false =>
    match s.sequencedTo.before? s.sequencedFrom with
    | none => .misuse .kind
    | some true => .reject (.invertedRange s.sequencedFrom s.sequencedTo)
    | some false => .ok ()

/-! ## 3. Entries -/

/-- Settings with the rule read. -/
def withRule (s : Settings) : Outcome Settings := do
  let r ← RefereeRule.read s.refereeRule
  return s.set .refereeRule (.rule r)

/-- The default settings with some entries in place. -/
def assigned (entries : Entries) : Settings :=
  entries.foldl (fun s e => s.setNamed e.1 e.2) default

/-- Makes settings from entries, all of which have to name a setting. -/
def create (entries : Entries) : Outcome Settings :=
  if entries.all fun e => (Setting.ofName? e.1).isSome then (assigned entries).withRule
  else .misuse .kind

/-- Makes settings from entries of which some may be meant for others, and checks them. -/
def ofEntries (entries : Entries) : Outcome Settings := do
  let s ← (assigned entries).withRule
  s.validate
  return s

/-- The name of a member of a choice. -/
def memberName? : Value → Option String
  | .rule r => some r.name
  | .half h => some h.name
  | _ => none

/-- The entries of settings: the rule by name, all others as they are. -/
def toEntries (s : Settings) : Except Fault Entries :=
  match memberName? s.refereeRule with
  | some name => .ok (Setting.all.map fun k => (k.name, (s.set .refereeRule (.text name)).get k))
  | none => .error (.misused .attribute)

end Settings
end Matchday
