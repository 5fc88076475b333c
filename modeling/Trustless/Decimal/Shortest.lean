import Trustless.Decimal.Binary64

/-!
# The shortest decimal that reads back

Every magnitude is the nearest one to a whole interval of numbers. `shortest` finds the decimal with
the fewest digits in that interval, and of several the nearest to the magnitude: for one digit, two
digits and so on it looks at the two neighbours of the magnitude on the grid of decimals with that
many digits.
-/

namespace Trustless.Decimal

/-- The decimal number `digits * 10 ^ exponent`. -/
structure Scientific where
  digits : Nat
  exponent : Int
deriving DecidableEq, Repr

namespace Scientific

/-- `10 ^ k` as numerator and denominator. -/
def power10 (k : Int) : Nat × Nat :=
  if 0 ≤ k then (Nat.pow 10 k.toNat, 1) else (1, Nat.pow 10 (-k).toNat)

/-- Moves zeros at the end of the digits into the exponent. -/
def trim (digits : Nat) (exponent : Int) : Scientific :=
  if h : digits ≠ 0 ∧ digits % 10 = 0 then trim (digits / 10) (exponent + 1)
  else ⟨digits, exponent⟩
termination_by digits
decreasing_by omega

/-- The place of the first digit: the least of the places tried with `n / d < 10 ^ place`. -/
def place (n d : Nat) : (tries : Nat) → Int → Int
  | 0, k => k
  | tries + 1, k =>
    let (p, q) := power10 (k - 1)
    if n * q < d * p then place n d tries (k - 1) else k

end Scientific

namespace Magnitude

/-- The numbers that round to a magnitude, over a common denominator: least, the magnitude itself,
greatest, denominator. -/
def interval (x : Magnitude) : Nat × Nat × Nat × Nat :=
  let (p, q) := power2 (x.exponent - 2)
  let below := if x.mantissa = minNormal ∧ x.exponent ≠ minExponent then 1 else 2
  ((4 * x.mantissa - below) * p, 4 * x.mantissa * p, (4 * x.mantissa + 2) * p, q)

/-- The decimal of `count` digits that rounds to the magnitude and is nearest to it, if there is
one. -/
def withDigits (x : Magnitude) (top : Int) (count : Nat) : Option Scientific :=
  let (lo, v, hi, d) := interval x
  let k := top - count
  let (p, q) := Scientific.power10 k
  let unit := d * p
  let inside (c : Nat) : Bool :=
    if x.mantissa % 2 = 0 then decide (lo * q ≤ c * unit) && decide (c * unit ≤ hi * q)
    else decide (lo * q < c * unit) && decide (c * unit < hi * q)
  let c := v * q / unit
  let r := v * q % unit
  match inside c, inside (c + 1) with
  | true, true =>
    some ⟨if 2 * r < unit ∨ (2 * r = unit ∧ c % 2 = 0) then c else c + 1, k⟩
  | true, false => some ⟨c, k⟩
  | false, true => some ⟨c + 1, k⟩
  | false, false => none

/-- The first number of digits for which a decimal is found; seventeen always suffice. -/
def search (x : Magnitude) (top : Int) : (tries count : Nat) → Scientific
  | 0, _ => ⟨0, 0⟩
  | tries + 1, count =>
    match withDigits x top count with
    | some s => Scientific.trim s.digits s.exponent
    | none => search x top tries (count + 1)

/-- The shortest decimal that rounds to a magnitude other than zero. -/
def shortest (x : Magnitude) : Scientific :=
  let (_, v, _, d) := interval x
  search x (Scientific.place v d 634 310) 17 1

end Magnitude

end Trustless.Decimal
