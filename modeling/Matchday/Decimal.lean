/-
# Decimals

A decimal is a number with a point, as a machine keeps it. It is a whole number of units, of which
`2 ^ 1074` make one, and of its binary digits only the first 53 count: from the 54th on all are
zero. What lies between two decimals is rounded to the nearer one, and half way to the one whose
last counting digit is even (`rounded`). From `2 ^ 1024` on a number is too large and becomes
infinite. What is no number is a decimal too; it is told from others by a mark, the object it is.

The sign stands apart from the units, so that a negative zero can be told from zero in writing,
while every comparison goes by the number and takes the two for equal.

A decimal is written with the fewest digits from which it can be read back. Among equally short
texts it has the nearest one.
-/
import Matchday.Number
import Matchday.Text.Whole

namespace Matchday

namespace Decimal

/-! ## 1. Rounding -/

/-- The whole number next to the fraction `n / d`, of two that are equally near the even one. -/
def nearest (n d : Nat) : Nat :=
  let quotient := n / d
  let rest := n % d
  if 2 * rest < d || (2 * rest == d && quotient % 2 == 0) then quotient else quotient + 1

/-- How many binary digits of a number of units do not count. -/
def spare (units : Nat) : Nat := units.log2 - 52

/-- The fraction `n / d` of units, rounded to 53 binary digits. -/
def rounded (n d : Nat) : Nat :=
  let step := Number.twos (spare (n / d))
  nearest n (d * step) * step

theorem nearest_le (n d : Nat) : nearest n d ≤ n / d + 1 := by
  unfold nearest
  dsimp only
  split <;> omega

/-- **No more than 53 digits of a rounded number count.** -/
theorem twos_spare_dvd_rounded (n d : Nat) :
    Number.twos (spare (rounded n d)) ∣ rounded n d := by
  have hshort : n / d < 2 ^ (53 + spare (n / d)) :=
    Nat.lt_of_lt_of_le Nat.lt_log2_self (Nat.pow_le_pow_right (by decide) (by unfold spare; omega))
  simp only [rounded]
  generalize spare (n / d) = k at hshort ⊢
  have hstep : Number.twos k = 2 ^ k := rfl
  have hle : nearest n (d * 2 ^ k) ≤ 2 ^ 53 := by
    have hquotient : n / (d * 2 ^ k) < 2 ^ 53 := by
      rw [← Nat.div_div_eq_div_mul]
      exact Nat.div_lt_of_lt_mul (by rwa [Nat.pow_add, Nat.mul_comm] at hshort)
    have := nearest_le n (d * 2 ^ k)
    omega
  rw [hstep]
  rcases Nat.lt_or_eq_of_le hle with hlt | heq
  · have hlog : spare (nearest n (d * 2 ^ k) * 2 ^ k) ≤ k := by
      rcases Nat.eq_zero_or_pos (nearest n (d * 2 ^ k)) with hzero | hpos
      · rw [hzero, Nat.zero_mul]
        exact Nat.zero_le k
      · have hprod : nearest n (d * 2 ^ k) * 2 ^ k < 2 ^ (53 + k) := by
          rw [Nat.pow_add]
          exact Nat.mul_lt_mul_of_pos_right hlt (Nat.two_pow_pos k)
        have hne : nearest n (d * 2 ^ k) * 2 ^ k ≠ 0 :=
          Nat.mul_ne_zero (by omega) (Nat.ne_of_gt (Nat.two_pow_pos k))
        have := (Nat.log2_lt hne).mpr hprod
        unfold spare
        omega
    exact Nat.dvd_trans (Nat.pow_dvd_pow 2 hlog) (Nat.dvd_mul_left _ _)
  · rw [heq, ← Nat.pow_add]
    refine Nat.pow_dvd_pow 2 ?_
    rw [spare, Nat.log2_two_pow]
    omega

end Decimal

/-! ## 2. Decimals -/

/-- A number of units with a sign, small enough and with no more than 53 binary digits that
count. -/
structure Decimal.Finite where
  negative : Bool
  units : Nat
  small : units < Number.twos 2098
  short : Number.twos (Decimal.spare units) ∣ units
deriving DecidableEq

/-- A number with a point, an infinity, or what is no number, as the object with a mark. -/
inductive Decimal where
  | finite (d : Decimal.Finite)
  | infinite (negative : Bool)
  | noNumber (object : Nat)
deriving DecidableEq

namespace Decimal

/-- The number that a decimal is. -/
def number : Decimal → Number
  | finite d => .fraction (if d.negative then -d.units else d.units) 1074
  | infinite negative => .infinite negative
  | noNumber object => .noNumber object

/-- The decimal is zero, with whatever sign. -/
def isZero : Decimal → Bool
  | finite d => d.units == 0
  | _ => false

/-- The decimal nearest to a fraction of units. -/
def ofUnits (negative : Bool) (n d : Nat) : Decimal :=
  if h : rounded n d < Number.twos 2098 then
    finite ⟨negative, rounded n d, h, twos_spare_dvd_rounded n d⟩
  else infinite negative

/-! ## 3. Writing -/

/-- How many parts of a unit are `1 / 10 ^ 1074`: a unit is this many. -/
def fives : Nat := Nat.pow 5 1074

/-- Of the two neighbours of a decimal among the multiples of a step, counted in `1 / 10 ^ 1074`,
the one from which it can be read back; if both are, then the nearer one. -/
def readable? (units step : Nat) : Option Nat :=
  let below := units * fives / step * step
  let readsBack (n : Nat) : Bool := rounded n fives == units
  match readsBack below, readsBack (below + step) with
  | true, true => some (nearest (units * fives) step * step)
  | true, false => some below
  | false, true => some (below + step)
  | false, false => none

/-- The number with the fewest digits that reads back as a decimal, in `1 / 10 ^ 1074`. No decimal
needs more than seventeen. -/
def shortest (units : Nat) : Nat :=
  let length := (Nat.toDigits 10 (units * fives)).length
  ((List.range' 1 17).findSome? fun k => readable? units (Nat.pow 10 (length - k))).getD
    (units * fives)

/-- The digits without the zeros at the end. -/
def significant (digits : List Char) : List Char :=
  (digits.reverse.dropWhile (· == '0')).reverse

/-- An exponent: its sign and at least two digits. -/
def exponentText (e : Int) : String :=
  let digits := Text.natural e.natAbs
  (if e < 0 then "-" else "+") ++ (if digits.length < 2 then "0" ++ digits else digits)

/-- The digits with a point after the first `point` of them, at least one digit on each side. -/
def positional (digits : List Char) (point : Int) : String :=
  if point ≤ 0 then
    "0." ++ String.ofList (List.replicate point.natAbs '0' ++ digits)
  else
    let whole := digits.take point.toNat
    let rest := digits.drop point.toNat
    String.ofList (whole ++ List.replicate (point.toNat - whole.length) '0') ++ "." ++
      (if rest.isEmpty then "0" else String.ofList rest)

/-- The digits with a point after the first one, times a power of ten. -/
def scientific (digits : List Char) (point : Int) : String :=
  let rest := digits.drop 1
  String.ofList (digits.take 1) ++ (if rest.isEmpty then "" else "." ++ String.ofList rest) ++
    "e" ++ exponentText (point - 1)

/-- The text of some units: positional from `0.0001` up to below `10 ^ 16`, else with an exponent.
Zero is `0.0`. -/
def unitsText (units : Nat) : String :=
  let digits := Nat.toDigits 10 (shortest units)
  let point : Int := digits.length - 1074
  if units = 0 then "0.0"
  else if -4 < point && point ≤ 16 then positional (significant digits) point
  else scientific (significant digits) point

/-- The text of a decimal. -/
def text : Decimal → String
  | finite d => (if d.negative then "-" else "") ++ unitsText d.units
  | infinite negative => (if negative then "-" else "") ++ "inf"
  | noNumber _ => "nan"

/-! ## 4. Reading -/

/-- The number that a list of digits spells, if it is one and not empty. -/
def digits? (cs : List Char) : Option Nat :=
  if cs.isEmpty || !cs.all Char.isDigit then none
  else some (cs.foldl (fun n c => 10 * n + (c.toNat - '0'.toNat)) 0)

/-- A sign in front, and the rest. -/
def signed? : List Char → Bool × List Char
  | '-' :: cs => (true, cs)
  | '+' :: cs => (false, cs)
  | cs => (false, cs)

/-- The decimal nearest to `n * 10 ^ exponent`. -/
def scaled (negative : Bool) (n : Nat) (exponent : Int) : Decimal :=
  let tens := Nat.pow 10 exponent.natAbs
  let units := n * Number.twos 1074
  if exponent < 0 then ofUnits negative units tens else ofUnits negative (units * tens) 1

/-- Reads a sign, digits with a point among them, and an exponent; only the whole part must be
there. Infinities and what is no number are read by name; an object read that way has the mark
zero. -/
def ofText? (s : String) : Option Decimal := do
  let (negative, cs) := signed? s.toList
  if cs == "inf".toList then return infinite negative
  if cs == "nan".toList then return noNumber 0
  let isMark (c : Char) : Bool := c == 'e' || c == 'E'
  let mantissa := cs.takeWhile (!isMark ·)
  let exponent ← match cs.dropWhile (!isMark ·) with
    | [] => some 0
    | _ :: e =>
      let (below, digits) := signed? e
      (digits? digits).map fun n => if below then -(n : Int) else (n : Int)
  let whole := mantissa.takeWhile (· != '.')
  let rest := (mantissa.dropWhile (· != '.')).drop 1
  let units ← digits? (whole ++ rest)
  return scaled negative units (exponent - rest.length)

end Decimal
end Matchday
