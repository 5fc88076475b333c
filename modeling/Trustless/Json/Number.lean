import Trustless.Decimal.Shortest

/-!
# JSON numbers

A number written without fraction and exponent is kept as an integer if it fits 64 bits: from 0 to
`2 ^ 64 - 1`, or negative down to `-2 ^ 63`. Every other number is a binary64 number; one that is too
large for that is refused. Minus zero is a binary64 number.

* `Numeral` is the grammar of a number's text, `Number.ofNumeral?` its value.
* `Number.toChars` writes integers in full and binary64 numbers with the fewest digits that read
  back.
-/

namespace Trustless.Json

open Decimal (Magnitude Scientific)

/-- The value of a number. `negative n` stands for `-n`. -/
inductive Number
  | natural (n : Nat)
  | negative (n : Nat)
  | real (negative : Bool) (magnitude : Magnitude)
deriving DecidableEq, Repr

/-- A number as it is written. -/
structure Numeral where
  negative : Bool
  whole : List Char
  fraction : Option (List Char)
  exponent : Option (Bool × List Char)
deriving DecidableEq, Repr

namespace Numeral

/-- The exponent part, and nothing after it. -/
def readExponent : List Char → Option (Option (Bool × List Char))
  | [] => some none
  | c :: cs =>
    if c = 'e' ∨ c = 'E' then
      let (negative, digits) := match cs with
        | '-' :: ds => (true, ds)
        | '+' :: ds => (false, ds)
        | ds => (false, ds)
      if digits ≠ [] ∧ digits.all Char.isDigit then some (some (negative, digits)) else none
    else none

/-- The fraction part and what follows it. -/
def readFraction : List Char → Option (Option (List Char) × List Char)
  | '.' :: cs =>
    let digits := cs.takeWhile Char.isDigit
    if digits = [] then none else some (some digits, cs.dropWhile Char.isDigit)
  | cs => some (none, cs)

/-- The digits before the point: a single zero, or digits that do not start with one. -/
def readWhole (cs : List Char) : Option (List Char × List Char) :=
  match cs.takeWhile Char.isDigit with
  | [] => none
  | ['0'] => some (['0'], cs.dropWhile Char.isDigit)
  | '0' :: _ => none
  | digits => some (digits, cs.dropWhile Char.isDigit)

/-- Reads a whole text as a number. -/
def ofChars? (cs : List Char) : Option Numeral := do
  let (negative, cs) := match cs with
    | '-' :: ds => (true, ds)
    | ds => (false, ds)
  let (whole, cs) ← readWhole cs
  let (fraction, cs) ← readFraction cs
  let exponent ← readExponent cs
  some ⟨negative, whole, fraction, exponent⟩

/-- Appends digits to a number as long as it stays below `2 ^ 64`, and counts those left out. -/
def absorb (n : Nat) : List Char → Nat × Nat
  | [] => (n, 0)
  | c :: cs =>
    let m := 10 * n + (c.toNat - '0'.toNat)
    if m < UInt64.size then absorb m cs else (n, cs.length + 1)

end Numeral

namespace Number

/-- The binary64 value of a number's text: as many digits as fit 64 bits make the significand, and
the others only move the point. -/
def ofParts? (x : Numeral) : Option Number := do
  let (n, left) := Numeral.absorb 0 x.whole
  let fraction := x.fraction.getD []
  let (n, dropped) := Numeral.absorb n fraction
  let shift : Int := match x.exponent with
    | none => 0
    | some (minus, digits) =>
      let e : Int := Nat.ofDigitChars 10 digits 0
      if minus then -e else e
  let significand ← Magnitude.ofQuotient n 1
  let m ← Magnitude.scaled significand ((left : Int) - ((fraction.length : Int) - dropped) + shift)
  some (.real x.negative m)

/-- The value of a number's text. -/
def ofNumeral? (x : Numeral) : Option Number :=
  match x.fraction, x.exponent with
  | none, none =>
    let n := Nat.ofDigitChars 10 x.whole 0
    if !x.negative && n < UInt64.size then some (.natural n)
    else if x.negative && 0 < n && n ≤ UInt64.size / 2 then some (.negative n)
    else ofParts? x
  | _, _ => ofParts? x

/-- The value of a text that is a number and nothing else. -/
def ofChars? (cs : List Char) : Option Number :=
  Numeral.ofChars? cs >>= ofNumeral?

/-- A positive decimal: with a point and no exponent from `10 ^ -5` to `10 ^ 16`, and a fraction even
if it is zero; with an exponent otherwise, which has its sign even if that is a plus. -/
def decimalChars (s : Scientific) : List Char :=
  let ds := Nat.toDigits 10 s.digits
  let point : Int := ds.length + s.exponent
  if 0 ≤ s.exponent ∧ point ≤ 16 then
    ds ++ List.replicate s.exponent.toNat '0' ++ ['.', '0']
  else if 0 < point ∧ point ≤ 16 then
    ds.take point.toNat ++ '.' :: ds.drop point.toNat
  else if -5 < point ∧ point ≤ 0 then
    '0' :: '.' :: List.replicate (-point).toNat '0' ++ ds
  else
    let e := point - 1
    ds.take 1 ++ (if ds.length = 1 then [] else '.' :: ds.drop 1)
      ++ 'e' :: (if e < 0 then '-' else '+') :: Nat.toDigits 10 e.natAbs

/-- The text of a number. -/
def toChars : Number → List Char
  | natural n => Nat.toDigits 10 n
  | negative n => '-' :: Nat.toDigits 10 n
  | real minus m =>
    (if minus then ['-'] else [])
      ++ (if m.mantissa = 0 then ['0', '.', '0'] else decimalChars m.shortest)

end Number

end Trustless.Json
