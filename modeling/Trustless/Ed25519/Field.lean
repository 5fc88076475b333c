/-!
# The field of the curve

Arithmetic modulo the prime `2 ^ 255 - 19` on natural numbers below it.
-/

namespace Trustless.Ed25519.Field

/-- The order of the field. -/
def order : Nat := (1 <<< 255) - 19

@[inline] def add (a b : Nat) : Nat := (a + b) % order

@[inline] def sub (a b : Nat) : Nat := (a + (order - b)) % order

@[inline] def mul (a b : Nat) : Nat := (a * b) % order

@[inline] def neg (a : Nat) : Nat := (order - a) % order

/-- `a ^ e` for an exponent of at most `bits` bits. -/
def pow (a : Nat) : (bits e : Nat) → Nat
  | 0, _ => 1
  | bits + 1, e =>
    let square := pow (mul a a) bits (e / 2)
    if e % 2 = 1 then mul a square else square

/-- The inverse; zero for zero. -/
def inv (a : Nat) : Nat := pow a 255 (order - 2)

/-- A square root of -1. -/
def rootOfMinusOne : Nat :=
  19681161376707505956807079304988542015446066515923890162744021073123829784752

/-- An even square root of `u / v`, if there is one. -/
def sqrtQuotient? (u v : Nat) : Option Nat :=
  let v3 := mul (mul v v) v
  let v7 := mul (mul v3 v3) v
  let x := mul (mul u v3) (pow (mul u v7) 255 ((order - 5) / 8))
  let check := mul v (mul x x)
  let root :=
    if check = u then some x
    else if check = neg u then some (mul x rootOfMinusOne)
    else none
  root.map fun x => if x % 2 = 1 then neg x else x

end Trustless.Ed25519.Field
