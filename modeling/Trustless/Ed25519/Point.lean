import Trustless.Bytes.LittleEndian
import Trustless.Ed25519.Field

/-!
# Points of the curve

The curve is `-x² + y² = 1 + d x² y²`. A point is kept as `(X : Y : Z : T)` with `x = X / Z`,
`y = Y / Z` and `T = X Y / Z`, for which one addition formula has no exceptions.

Written as 32 bytes, a point is its `y` with the lowest bit of `x` on top. Reading takes every `y`
of 255 bits, also one that is not below the order of the field, and a sign for `x = 0`.
-/

namespace Trustless.Ed25519

open Trustless.Ed25519.Field

/-- A point in extended coordinates. -/
structure Point where
  x : Nat
  y : Nat
  z : Nat
  t : Nat
deriving DecidableEq, Repr

namespace Point

/-- The constant of the curve. -/
def d : Nat := 37095705934669439343138083508754565189542113879843219016388785533085940283555

/-- The neutral point. -/
def zero : Point := ⟨0, 1, 1, 0⟩

/-- The base point, which generates the subgroup of prime order. -/
def base : Point :=
  let x := 15112221349535400772501151409588531511454012693041857206046113283949847762202
  let y := 46316835694926478169428394003475163141307993866256225615783033603165251855960
  ⟨x, y, 1, mul x y⟩

/-- The opposite point. -/
def opposite (p : Point) : Point :=
  ⟨neg p.x, p.y, p.z, neg p.t⟩

/-- The sum of two points. -/
def plus (p q : Point) : Point :=
  let a := mul (sub p.y p.x) (sub q.y q.x)
  let b := mul (add p.y p.x) (add q.y q.x)
  let c := mul (mul p.t (add d d)) q.t
  let e := mul (add p.z p.z) q.z
  let f := sub b a
  let g := sub e c
  let h := add e c
  let i := add b a
  ⟨mul f g, mul h i, mul g h, mul f i⟩

/-- `n` times a point, for a number of at most `bits` bits. -/
def times (p : Point) : (bits n : Nat) → Point
  | 0, _ => zero
  | bits + 1, n =>
    let double := times (plus p p) bits (n / 2)
    if n % 2 = 1 then plus p double else double

/-- The 32 bytes of a point. -/
def toBytes (p : Point) : ByteVector 32 :=
  let i := inv p.z
  let x := mul p.x i
  let y := mul p.y i
  Bytes.ofNat 32 (y + (x % 2) <<< 255)

/-- The point that 32 bytes stand for. -/
def ofBytes? (b : ByteVector 32) : Option Point :=
  let n := Bytes.toNat b.toByteArray
  let y := n % (1 <<< 255) % order
  let y2 := mul y y
  (sqrtQuotient? (sub y2 1) (add (mul d y2) 1)).map fun x =>
    let x := if n >>> 255 = 1 then neg x else x
    ⟨x, y, 1, mul x y⟩

end Point

end Trustless.Ed25519
