/-
# Whole numbers as text

A natural number is written in decimal digits without leading zeros, an integer with a minus
sign in front when it is negative.
-/
namespace Matchday.Text

/-- The decimal digits of a natural number. -/
def natural (n : Nat) : String := String.ofList (Nat.toDigits 10 n)

/-- The decimal digits of an integer, behind a minus sign if it is negative. -/
def whole (n : Int) : String :=
  if n < 0 then "-" ++ natural n.natAbs else natural n.natAbs

end Matchday.Text
