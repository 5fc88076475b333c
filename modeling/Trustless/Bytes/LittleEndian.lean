import Trustless.Bytes.Basic

/-!
# Integers as bytes, least significant first

* `u64`, `u32`: the word at a position of a byte string, zero beyond the end.
* `ofU64`: a word as eight bytes; `u64_ofU64` says that reading gives the word back.
* `toNat`, `ofNat`: whole byte strings as natural numbers.
* `lengthPrefixed`: a byte string after its own length.
* `EncodingError`: what can be wrong with bytes of fixed width, and with bytes that come as text.
-/

namespace Trustless

/-- Why encoded bytes were refused. -/
inductive EncodingError
  | wrongLength (expected got : Nat)
  | oddHexLength
  | invalidHex
  | invalidBase64
deriving DecidableEq, Repr

/-- The wording of an encoding error. -/
def EncodingError.message : EncodingError → String
  | .wrongLength expected got => s!"expected {expected} bytes, got {got}"
  | .oddHexLength => "hex input has odd length"
  | .invalidHex => "hex input has invalid character"
  | .invalidBase64 => "provided string is not valid base64"

namespace Bytes

/-- The 64-bit word at position `i`. -/
@[inline] def u64 (b : ByteArray) (i : Nat) : UInt64 :=
  (byteAt b i).toUInt64 + 0x100 * (byteAt b (i + 1)).toUInt64
    + 0x10000 * (byteAt b (i + 2)).toUInt64 + 0x1000000 * (byteAt b (i + 3)).toUInt64
    + 0x100000000 * (byteAt b (i + 4)).toUInt64 + 0x10000000000 * (byteAt b (i + 5)).toUInt64
    + 0x1000000000000 * (byteAt b (i + 6)).toUInt64
    + 0x100000000000000 * (byteAt b (i + 7)).toUInt64

/-- The 32-bit word at position `i`. -/
@[inline] def u32 (b : ByteArray) (i : Nat) : UInt32 :=
  (byteAt b i).toUInt32 + 0x100 * (byteAt b (i + 1)).toUInt32
    + 0x10000 * (byteAt b (i + 2)).toUInt32 + 0x1000000 * (byteAt b (i + 3)).toUInt32

/-- A 64-bit word as eight bytes. -/
def ofU64 (n : UInt64) : ByteVector 8 :=
  ⟨⟨#[n.toUInt8, (n >>> 8).toUInt8, (n >>> 16).toUInt8, (n >>> 24).toUInt8,
      (n >>> 32).toUInt8, (n >>> 40).toUInt8, (n >>> 48).toUInt8, (n >>> 56).toUInt8]⟩, rfl⟩

/-- The word that a byte string of exactly eight bytes stands for. -/
def decodeU64 (b : ByteArray) : Except EncodingError UInt64 :=
  if b.size = 8 then .ok (u64 b 0) else .error (.wrongLength 8 b.size)

/-- A 32-bit word as four bytes. -/
def ofU32 (n : UInt32) : ByteVector 4 :=
  ⟨⟨#[n.toUInt8, (n >>> 8).toUInt8, (n >>> 16).toUInt8, (n >>> 24).toUInt8]⟩, rfl⟩

/-- The number whose base-256 digits, least significant first, are the given bytes. -/
def natOfDigits (ds : List UInt8) : Nat :=
  ds.foldr (fun d n => d.toNat + 256 * n) 0

/-- A whole byte string as a number. -/
def toNat (b : ByteArray) : Nat :=
  natOfDigits b.data.toList

/-- The lowest `k` base-256 digits of a number. -/
def digits : Nat → Nat → List UInt8
  | 0, _ => []
  | k + 1, n => n.toUInt8 :: digits k (n / 256)

theorem length_digits (k n : Nat) : (digits k n).length = k := by
  induction k generalizing n with
  | zero => rfl
  | succ k ih => simp [digits, ih]

/-- The lowest `k` bytes of a number. -/
def ofNat (k n : Nat) : ByteVector k :=
  ⟨⟨(digits k n).toArray⟩, by simp [ByteArray.size, length_digits]⟩

/-- A byte string after its length as a 64-bit word. -/
def lengthPrefixed (b : ByteArray) : ByteArray :=
  (ofU64 b.size.toUInt64).toByteArray ++ b

private theorem byteAt_ofU64 (n : UInt64) :
    byteAt (ofU64 n).toByteArray 0 = n.toUInt8 ∧
    byteAt (ofU64 n).toByteArray 1 = (n >>> 8).toUInt8 ∧
    byteAt (ofU64 n).toByteArray 2 = (n >>> 16).toUInt8 ∧
    byteAt (ofU64 n).toByteArray 3 = (n >>> 24).toUInt8 ∧
    byteAt (ofU64 n).toByteArray 4 = (n >>> 32).toUInt8 ∧
    byteAt (ofU64 n).toByteArray 5 = (n >>> 40).toUInt8 ∧
    byteAt (ofU64 n).toByteArray 6 = (n >>> 48).toUInt8 ∧
    byteAt (ofU64 n).toByteArray 7 = (n >>> 56).toUInt8 :=
  ⟨rfl, rfl, rfl, rfl, rfl, rfl, rfl, rfl⟩

/-- A word is read back from its bytes. -/
theorem u64_ofU64 (n : UInt64) : u64 (ofU64 n).toByteArray 0 = n := by
  obtain ⟨h0, h1, h2, h3, h4, h5, h6, h7⟩ := byteAt_ofU64 n
  simp only [u64, Nat.zero_add, h0, h1, h2, h3, h4, h5, h6, h7]
  apply UInt64.toNat_inj.mp
  have hn := n.toNat_lt
  simp [Nat.shiftRight_eq_div_pow]
  omega

end Bytes

end Trustless
