/-
# Settings under their names

Settings that lie open can be given any value under any name, and most names mean nothing to them.
Those that do are of three sorts.

* Six are the settings. The value is taken as it is.
* Two are the requests that settings answer: to be validated, and to be written. A value laid under
  such a name covers the request, and what is covered cannot be asked for any more.
* Three belong to the panel. What it is and who holds on to it cannot be given at all. Under the
  name of its contents it takes a dictionary, which replaces whatever was given before; settings
  that are not among the new contents have their defaults again, and nothing else is covered.

A value under the name of a setting reaches that setting and nothing else (`give_setting`).
-/
import Matchday.Settings

namespace Matchday.Settings

/-! ## 1. Names -/

/-- A request that settings answer. -/
inductive Service where
  | validation
  | writing
deriving DecidableEq

namespace Service

/-- Both requests. -/
def all : List Service := [.validation, .writing]

/-- The name that a request is reached by. -/
def name : Service → String
  | .validation => "validate"
  | .writing => "to_dict"

/-- The request with a name. -/
def ofName? (s : String) : Option Service := all.find? (·.name == s)

end Service

/-- What belongs to a panel itself. -/
inductive Fixed where
  /-- What it is. -/
  | nature
  /-- Who holds on to it. -/
  | holders
  /-- All that it was given. -/
  | contents
deriving DecidableEq

namespace Fixed

/-- All that belongs to a panel. -/
def all : List Fixed := [.nature, .holders, .contents]

/-- The name of what belongs to a panel. -/
def name : Fixed → String
  | .nature => "__class__"
  | .holders => "__weakref__"
  | .contents => "__dict__"

/-- What belongs to a panel under a name. -/
def ofName? (s : String) : Option Fixed := all.find? (·.name == s)

end Fixed

/-! ## 2. Panels -/

/-- Settings that lie open, and their requests that are covered. -/
structure Panel where
  settings : Settings
  covered : List Service

namespace Panel

/-- A panel with nothing covered. -/
def opened (s : Settings) : Panel := ⟨s, []⟩

/-- Lays a value under a name that does not belong to the panel. -/
def lay (p : Panel) (name : String) (v : Value) : Panel :=
  ⟨p.settings.setNamed name v, (Service.ofName? name).toList ++ p.covered⟩

/-- A panel with new contents. Only what stands under a text can be reached by name. -/
def holding (contents : List (Value × Value)) : Panel :=
  contents.foldl
    (fun p e =>
      match e.1 with
      | .text name => p.lay name e.2
      | _ => p)
    (opened default)

/-- Gives a value under a name. -/
def give (p : Panel) (name : String) (v : Value) : Except Fault Panel :=
  match Fixed.ofName? name with
  | some .nature => .error (.misused .kind)
  | some .holders => .error (.misused .attribute)
  | some .contents =>
    match v with
    | .dict contents => .ok (holding contents)
    | _ => .error (.misused .kind)
  | none => .ok (p.lay name v)

/-- A request has to lie open. -/
def requireOpen (p : Panel) (service : Service) : Except Fault Unit :=
  if p.covered.contains service then .error (.misused .kind) else .ok ()

/-- Validates the settings. -/
def validate (p : Panel) : Outcome Unit := do
  Outcome.ofExcept (p.requireOpen .validation)
  p.settings.validate

/-- Writes the settings. -/
def toEntries (p : Panel) : Except Fault Entries := do
  p.requireOpen .writing
  p.settings.toEntries

/-- **Under the name of a setting the value reaches that setting alone.** -/
theorem give_setting (p : Panel) (k : Setting) (v : Value) :
    p.give k.name v = .ok ⟨p.settings.set k v, p.covered⟩ := by
  cases k <;> rfl

end Panel
end Matchday.Settings
