/-!
# Binary64 magnitudes in exact arithmetic

A finite binary64 number without its sign is `mantissa * 2 ^ exponent`. Everything here is computed
on natural numbers: a quotient is rounded to the nearest magnitude, a tie to the even mantissa, and
products and quotients of magnitudes are rounded in the same way.

`scaled` is how a decimal text becomes a magnitude: its significand and the power of ten are each
rounded first, and their product or quotient once more.
-/

namespace Trustless.Decimal

/-- The magnitude `mantissa * 2 ^ exponent`. -/
structure Magnitude where
  mantissa : Nat
  exponent : Int
deriving DecidableEq, Repr

namespace Magnitude

/-- The exponent of the smallest magnitudes. -/
def minExponent : Int := -1074

/-- The smallest mantissa of 53 bits. -/
def minNormal : Nat := 1 <<< 52

/-- Zero. -/
def zero : Magnitude := ⟨0, minExponent⟩

/-- `2 ^ e` as numerator and denominator. -/
def power2 (e : Int) : Nat × Nat :=
  if 0 ≤ e then (1 <<< e.toNat, 1) else (1, 1 <<< (-e).toNat)

/-- The whole number nearest to `n / d`; a half goes to the even neighbour. -/
def roundQuotient (n d : Nat) : Nat :=
  let q := n / d
  let r := n % d
  if 2 * r < d ∨ (2 * r = d ∧ q % 2 = 0) then q else q + 1

/-- The exponent with which `n / d` has a mantissa of 53 bits, or the smallest one. -/
def exponentFor (n d : Nat) : Int :=
  let e : Int := (n.log2 : Int) - d.log2 - 53
  let (p, q) := power2 e
  max minExponent (if n * q < d * p * (2 * minNormal) then e else e + 1)

/-- The magnitude nearest to `n / d`, if there is one below `2 ^ 1024`. -/
def ofQuotient (n d : Nat) : Option Magnitude :=
  if n = 0 then some zero
  else
    let e := exponentFor n d
    let (p, q) := power2 e
    let m := roundQuotient (n * q) (d * p)
    let x : Magnitude := if m = 2 * minNormal then ⟨minNormal, e + 1⟩ else ⟨m, e⟩
    if x.exponent ≤ 971 then some x else none

/-- The rounded product. -/
def mul (x y : Magnitude) : Option Magnitude :=
  let (p, q) := power2 (x.exponent + y.exponent)
  ofQuotient (x.mantissa * y.mantissa * p) q

/-- The rounded quotient; the divisor must not be zero. -/
def div (x y : Magnitude) : Option Magnitude :=
  let (p, q) := power2 (x.exponent - y.exponent)
  ofQuotient (x.mantissa * p) (y.mantissa * q)

/-- The largest power of ten that is a magnitude. -/
def maxPower10 : Nat := 308

/-- The magnitude nearest to `10 ^ k`. -/
def power10 (k : Nat) : Option Magnitude :=
  ofQuotient (Nat.pow 10 k) 1

/-- `significand * 10 ^ k` for a significand below `2 ^ 64`. A divisor that is no magnitude is
divided out in two steps; where two would not do, nothing is left. What is too large is no
magnitude. -/
def scaled (significand : Magnitude) (k : Int) : Option Magnitude :=
  if 0 ≤ k then
    if significand.mantissa = 0 then some zero
    else if k ≤ maxPower10 then do mul significand (← power10 k.toNat)
    else none
  else if -k ≤ maxPower10 then do div significand (← power10 (-k).toNat)
  else if -k ≤ 2 * maxPower10 then do
    div (← div significand (← power10 maxPower10)) (← power10 ((-k).toNat - maxPower10))
  else some zero

end Magnitude

end Trustless.Decimal
