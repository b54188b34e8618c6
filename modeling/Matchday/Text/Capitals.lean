/-
# Capitals

Names are looked up without regard to case by their capitals. All names are spelled in ASCII
letters, so only the characters whose capital form is ASCII matter: the small letters, and the few
others that have an ASCII letter or a pair of them as their capitals (dotless i, long s, sharp s
and the Latin ligatures). Every other character is left as it is; it spells no name either way.
-/
namespace Matchday.Text

/-- The characters outside ASCII whose capitals are ASCII, by code point. -/
def foreignCapitals : List (Nat × String) := [
  (0xdf, "SS"), (0x131, "I"), (0x17f, "S"), (0xfb00, "FF"), (0xfb01, "FI"), (0xfb02, "FL"),
  (0xfb03, "FFI"), (0xfb04, "FFL"), (0xfb05, "ST"), (0xfb06, "ST")]

/-- The capitals of one character. -/
def capital (c : Char) : List Char :=
  match foreignCapitals.lookup c.toNat with
  | some s => s.toList
  | none => [c.toUpper]

/-- A text in capitals, exact wherever the capitals are ASCII. -/
def capitals (s : String) : String := String.ofList (s.toList.flatMap capital)

end Matchday.Text
