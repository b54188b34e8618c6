/-
# Sessions with settings

Settings that were made can be written, checked, given other values under their names, and compared
with others. In between they lie open on a panel. Settings that are read again lie on a panel of
their own, where nothing is covered.
-/
import Matchday.Session
import Matchday.Settings.Panel

namespace Matchday.Settings

/-- A request to settings. -/
inductive Request where
  | entries
  | validate
  | set (name : String) (value : Value)
  /-- Writes the settings, reads them again and writes what was read. -/
  | rewritten
  | sameAs (entries : Entries)

/-- What is answered about settings. -/
inductive Answer where
  | done
  | entries (entries : Entries)
  | truth (truth : Bool)
  /-- Whether the settings were read back as they are, and their entries then. -/
  | rewritten (same : Bool) (entries : Entries)

/-- Answers a request. -/
def answer : Request → Action Panel Answer
  | .entries => do
    let p ← Action.state
    let es ← Outcome.ofExcept p.toEntries
    return .entries es
  | .validate => do
    let p ← Action.state
    p.validate
    return .done
  | .set name v => do
    let p ← Action.state
    let given ← Outcome.ofExcept (p.give name v)
    Action.change fun _ => given
    return .done
  | .rewritten => do
    let p ← Action.state
    let es ← Outcome.ofExcept p.toEntries
    let t ← ofEntries es
    let fs ← Outcome.ofExcept t.toEntries
    return .rewritten (t == p.settings) fs
  | .sameAs entries => do
    let p ← Action.state
    let t ← create entries
    return .truth (p.settings == t)

end Matchday.Settings
