/-
# Values as text

A value has two written forms. In a sentence (`plain`) a text stands as it is and the member of a
choice as its number. Quoted (`quoted`) a text stands between marks and the member of a choice
under its full name; the items of a tuple, list, set or dictionary are quoted in both forms. A
tuple of one item keeps its comma, and the empty set is spelled out, so that neither reads as
something else.
-/
import Matchday.Value.Kind
import Matchday.Text.Quoted

namespace Matchday
namespace Value

/-- A truth value in words. -/
def flagText (b : Bool) : String := if b then "True" else "False"

/-- The full name of a member of a choice, with its number. -/
def memberText (choice name : String) (number : Nat) : String :=
  "<" ++ choice ++ "." ++ name ++ ": " ++ Text.natural number ++ ">"

/-- The written items of a tuple. -/
def tupleText : List String → String
  | [s] => "(" ++ s ++ ",)"
  | ss => "(" ++ String.intercalate ", " ss ++ ")"

/-- The written items of a list. -/
def listText (ss : List String) : String := "[" ++ String.intercalate ", " ss ++ "]"

/-- The written items or entries between braces. -/
def bracedText (ss : List String) : String := "\x7b" ++ String.intercalate ", " ss ++ "\x7d"

mutual
/-- The quoted form. -/
def quoted : Value → String
  | .none => "None"
  | .bool b => flagText b
  | .int n => Text.whole n
  | .decimal d => d.text
  | .text s => Text.quoted s
  | .tuple items => tupleText (quotedAll items)
  | .list items => listText (quotedAll items)
  | .dict entries => bracedText (quotedEntries entries)
  | .set items => if items.isEmpty then "set()" else bracedText (quotedAll items)
  | .bye => "BYE"
  | .rule r => memberText Kind.rule.name r.name r.number
  | .half h => memberText Kind.half.name h.name h.number
termination_by structural v => v
/-- The quoted forms of some items. -/
def quotedAll : List Value → List String
  | [] => []
  | v :: vs => quoted v :: quotedAll vs
termination_by structural vs => vs
/-- The quoted forms of the entries of a dictionary. -/
def quotedEntries : List (Value × Value) → List String
  | [] => []
  | e :: es => quotedEntry e :: quotedEntries es
termination_by structural es => es
/-- An entry: its key, a colon and its value. -/
def quotedEntry : Value × Value → String
  | (k, v) => quoted k ++ ": " ++ quoted v
termination_by structural e => e
end

/-- The form in a sentence. -/
def plain : Value → String
  | .text s => s
  | .rule r => Text.natural r.number
  | .half h => Text.natural h.number
  | v => v.quoted

/-- The whole part of a number, which is how counts are reported. What is infinite or no number has
none. -/
def wholeText? (v : Value) : Option String :=
  v.number?.bind fun x => x.truncated?.map Text.whole

end Value
end Matchday
