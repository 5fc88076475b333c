import Trustless.Bytes.LittleEndian

/-!
# Hexadecimal text

Bytes are written as two lowercase digits each. Reading takes both cases of the letters and refuses
everything else: an odd number of UTF-8 bytes first, then any other character.

* `decodeChars_encodeList`: reading gives back what was written.
-/

namespace Trustless.Hex

/-- The lowercase digit of a number below sixteen. -/
def digit (n : Nat) : Char :=
  if n < 10 then Char.ofNat ('0'.toNat + n) else Char.ofNat ('a'.toNat + (n - 10))

/-- The value of a digit, in either case. -/
def digitValue? (c : Char) : Option Nat :=
  if '0' ≤ c ∧ c ≤ '9' then some (c.toNat - '0'.toNat)
  else if 'a' ≤ c ∧ c ≤ 'f' then some (c.toNat - 'a'.toNat + 10)
  else if 'A' ≤ c ∧ c ≤ 'F' then some (c.toNat - 'A'.toNat + 10)
  else none

/-- The two digits of every byte. -/
def encodeList (bs : List UInt8) : List Char :=
  bs.flatMap fun b => [digit (b.toNat / 16), digit (b.toNat % 16)]

/-- The bytes that pairs of digits stand for. -/
def decodeChars : List Char → Option (List UInt8)
  | [] => some []
  | [_] => none
  | c :: d :: cs =>
    match digitValue? c, digitValue? d, decodeChars cs with
    | some x, some y, some bs => some (UInt8.ofNat (16 * x + y) :: bs)
    | _, _, _ => none

/-- Bytes as lowercase hex. -/
def encode (b : ByteArray) : String :=
  String.ofList (encodeList b.data.toList)

/-- The bytes a hex text stands for. The empty text stands for no bytes. -/
def decode (s : String) : Except EncodingError ByteArray :=
  if s.utf8ByteSize % 2 ≠ 0 then .error .oddHexLength
  else match decodeChars s.toList with
    | some bs => .ok ⟨bs.toArray⟩
    | none => .error .invalidHex

/-- The bytes a hex text stands for, which must be exactly `n`. -/
def decodeVector (n : Nat) (s : String) : Except EncodingError (ByteVector n) := do
  let b ← decode s
  match ByteVector.ofByteArray? n b with
  | some v => .ok v
  | none => .error (.wrongLength n b.size)

theorem digitValue?_digit {n : Nat} (h : n < 16) : digitValue? (digit n) = some n := by
  revert n; decide

/-- Reading gives back the bytes that were written. -/
theorem decodeChars_encodeList (bs : List UInt8) : decodeChars (encodeList bs) = some bs := by
  induction bs with
  | nil => rfl
  | cons b bs ih =>
    have hb := b.toNat_lt
    rw [encodeList, List.flatMap_cons, List.cons_append, List.cons_append, List.nil_append,
      ← encodeList]
    simp only [decodeChars, digitValue?_digit (show b.toNat / 16 < 16 by omega),
      digitValue?_digit (show b.toNat % 16 < 16 by omega), ih,
      show 16 * (b.toNat / 16) + b.toNat % 16 = b.toNat by omega, UInt8.ofNat_toNat]

end Trustless.Hex

/-- A fixed-length byte string as lowercase hex. -/
def Trustless.ByteVector.toHex {n : Nat} (v : Trustless.ByteVector n) : String :=
  Trustless.Hex.encode v.toByteArray
