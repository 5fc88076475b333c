import Trustless.Bytes.LittleEndian

/-!
# Base64 text

Links and keys travel as base64 in the URL-safe alphabet without padding. Reading is lenient about
the spelling and strict about the content: both alphabets are taken, and any part of the padding,
while bits that stand for no byte must be zero.

* `ofSextets_toSextets`: grouping the bits by six and back loses nothing.
-/

namespace Trustless.Base64

/-- The URL-safe letter of a number below sixty-four. -/
def letter (n : Nat) : Char :=
  if n < 26 then Char.ofNat ('A'.toNat + n)
  else if n < 52 then Char.ofNat ('a'.toNat + (n - 26))
  else if n < 62 then Char.ofNat ('0'.toNat + (n - 52))
  else if n = 62 then '-'
  else '_'

/-- The value of a letter of either alphabet. -/
def letterValue? (c : Char) : Option Nat :=
  if 'A' ≤ c ∧ c ≤ 'Z' then some (c.toNat - 'A'.toNat)
  else if 'a' ≤ c ∧ c ≤ 'z' then some (c.toNat - 'a'.toNat + 26)
  else if '0' ≤ c ∧ c ≤ '9' then some (c.toNat - '0'.toNat + 52)
  else if c = '-' ∨ c = '+' then some 62
  else if c = '_' ∨ c = '/' then some 63
  else none

/-- Bytes cut into groups of six bits, the last one filled up with zero bits. -/
def toSextets : List UInt8 → List Nat
  | a :: b :: c :: r =>
    a.toNat / 4 :: (a.toNat % 4 * 16 + b.toNat / 16) :: (b.toNat % 16 * 4 + c.toNat / 64)
      :: c.toNat % 64 :: toSextets r
  | [a, b] => [a.toNat / 4, a.toNat % 4 * 16 + b.toNat / 16, b.toNat % 16 * 4]
  | [a] => [a.toNat / 4, a.toNat % 4 * 16]
  | [] => []

/-- The bytes that groups of six bits stand for; filling bits must be zero. -/
def ofSextets : List Nat → Option (List UInt8)
  | w :: x :: y :: z :: r =>
    (ofSextets r).map fun bs =>
      UInt8.ofNat (w * 4 + x / 16) :: UInt8.ofNat (x % 16 * 16 + y / 4)
        :: UInt8.ofNat (y % 4 * 64 + z) :: bs
  | [w, x, y] =>
    if y % 4 = 0 then some [UInt8.ofNat (w * 4 + x / 16), UInt8.ofNat (x % 16 * 16 + y / 4)]
    else none
  | [w, x] => if x % 16 = 0 then some [UInt8.ofNat (w * 4 + x / 16)] else none
  | [_] => none
  | [] => some []

/-- Bytes as URL-safe base64 without padding. -/
def encode (b : ByteArray) : String :=
  String.ofList ((toSextets b.data.toList).map letter)

/-- The bytes a list of characters stands for: letters, then at most as many `=` as would complete
the last group of four. -/
def decodeChars (cs : List Char) : Option (List UInt8) := do
  let letters := cs.takeWhile (· ≠ '=')
  let padding := cs.dropWhile (· ≠ '=')
  let values ← letters.mapM letterValue?
  let bs ← ofSextets values
  if padding.all (· = '=') ∧ padding.length ≤ (4 - values.length % 4) % 4 then some bs else none

/-- The bytes a base64 text stands for. -/
def decode (s : String) : Except EncodingError ByteArray :=
  match decodeChars s.toList with
  | some bs => .ok ⟨bs.toArray⟩
  | none => .error .invalidBase64

theorem letterValue?_letter {n : Nat} (h : n < 64) : letterValue? (letter n) = some n := by
  revert n; decide

/-- Grouping the bits of bytes by six and back gives the bytes. -/
theorem ofSextets_toSextets (bs : List UInt8) : ofSextets (toSextets bs) = some bs := by
  induction bs using toSextets.induct with
  | case1 a b c r ih =>
    have ha := a.toNat_lt
    have hb := b.toNat_lt
    have hc := c.toNat_lt
    simp only [toSextets, ofSextets, ih, Option.map_some, Option.some.injEq, List.cons.injEq,
      and_true]
    refine ⟨?_, ?_, ?_⟩ <;> apply UInt8.toNat_inj.mp <;> simp <;> omega
  | case2 a b =>
    have ha := a.toNat_lt
    have hb := b.toNat_lt
    simp only [toSextets, ofSextets]
    rw [if_pos (by omega)]
    simp only [Option.some.injEq, List.cons.injEq, and_true]
    refine ⟨?_, ?_⟩ <;> apply UInt8.toNat_inj.mp <;> simp <;> omega
  | case3 a =>
    have ha := a.toNat_lt
    simp only [toSextets, ofSextets]
    rw [if_pos (by omega)]
    simp only [Option.some.injEq, List.cons.injEq, and_true]
    apply UInt8.toNat_inj.mp
    simp
    omega
  | case4 => rfl

end Trustless.Base64
