/-!
# Byte strings: reading, chunks and fixed lengths

Sectors, proofs and keys are `ByteArray`s. This module holds what the rest of the library needs on
top of core: reading beyond the end as zero, cutting into equal chunks, runs of one byte, and
`ByteVector n`, a byte string that is known to have `n` bytes.

* `ByteVector.ext`: a fixed-length byte string is its bytes.
* `size_chunk`, `length_chunks`: every chunk has the asked length, and there are `size / k` of them.
-/

namespace Trustless

namespace Bytes

/-- Whether two byte strings are the same can be decided. -/
instance decidableEq : DecidableEq ByteArray :=
  ByteArray.instDecidableEq

/-- The byte at position `i`, zero beyond the end. -/
@[inline] def byteAt (b : ByteArray) (i : Nat) : UInt8 :=
  if h : i < b.size then b[i] else 0

/-- The `i`-th run of `k` bytes. -/
@[inline] def chunk (b : ByteArray) (k i : Nat) : ByteArray :=
  b.extract (i * k) (i * k + k)

/-- The complete runs of `k` bytes, in order; what is left at the end is dropped. -/
def chunks (b : ByteArray) (k : Nat) : List ByteArray :=
  (List.range (b.size / k)).map (chunk b k)

/-- `n` copies of the byte `x` after `b`. -/
def pad (b : ByteArray) (x : UInt8) : Nat → ByteArray
  | 0 => b
  | n + 1 => pad (b.push x) x n

/-- `n` zero bytes. -/
def zeros (n : Nat) : ByteArray :=
  pad ByteArray.empty 0 n

/-- The UTF-8 bytes of a text. -/
def ofString (s : String) : ByteArray :=
  s.toUTF8

@[simp] theorem length_chunks (b : ByteArray) (k : Nat) : (chunks b k).length = b.size / k := by
  simp [chunks]

theorem size_chunk (b : ByteArray) {k i : Nat} (h : i * k + k ≤ b.size) :
    (chunk b k i).size = k := by
  simp only [chunk, ByteArray.size_extract]
  omega

@[simp] theorem size_pad (b : ByteArray) (x : UInt8) (n : Nat) : (pad b x n).size = b.size + n := by
  induction n generalizing b with
  | zero => rfl
  | succ n ih => rw [pad, ih, ByteArray.size_push]; omega

@[simp] theorem size_zeros (n : Nat) : (zeros n).size = n := by
  rw [zeros, size_pad]
  simp

end Bytes

/-- A byte string of exactly `n` bytes. -/
structure ByteVector (n : Nat) where
  toByteArray : ByteArray
  size_eq : toByteArray.size = n
deriving DecidableEq

/-- A hash value: 32 bytes. -/
abbrev Digest := ByteVector 32

namespace ByteVector

variable {n : Nat}

@[ext] theorem ext {a b : ByteVector n} (h : a.toByteArray = b.toByteArray) : a = b := by
  cases a; cases b; cases h; rfl

/-- `n` zero bytes. -/
def zero (n : Nat) : ByteVector n :=
  ⟨Bytes.zeros n, Bytes.size_zeros n⟩

instance : Inhabited (ByteVector n) :=
  ⟨zero n⟩

/-- The bytes as a fixed-length string, if their number is right. -/
def ofByteArray? (n : Nat) (b : ByteArray) : Option (ByteVector n) :=
  if h : b.size = n then some ⟨b, h⟩ else none

/-- The `n` bytes from position `i` on. -/
def slice (b : ByteArray) (i n : Nat) (h : i + n ≤ b.size) : ByteVector n :=
  ⟨b.extract i (i + n), by rw [ByteArray.size_extract]; omega⟩

theorem toByteArray_slice (b : ByteArray) (i n : Nat) (h : i + n ≤ b.size) :
    (slice b i n h).toByteArray = b.extract i (i + n) :=
  rfl

/-- The `n` bytes from position `i` on, filled up with zeros beyond the end. -/
def sliceD (b : ByteArray) (i n : Nat) : ByteVector n :=
  if h : i + n ≤ b.size then slice b i n h
  else ⟨Bytes.pad (b.extract i (i + n)) 0 (n - (b.extract i (i + n)).size), by
    rw [Bytes.size_pad, ByteArray.size_extract]; omega⟩

/-- Two byte strings in a row. -/
def append {m : Nat} (a : ByteVector m) (b : ByteVector n) : ByteVector (m + n) :=
  ⟨a.toByteArray ++ b.toByteArray, by rw [ByteArray.size_append, a.size_eq, b.size_eq]⟩

instance {m : Nat} : HAppend (ByteVector m) (ByteVector n) (ByteVector (m + n)) :=
  ⟨append⟩

theorem toByteArray_append {m : Nat} (a : ByteVector m) (b : ByteVector n) :
    (a ++ b).toByteArray = a.toByteArray ++ b.toByteArray := rfl

theorem ofByteArray?_toByteArray (v : ByteVector n) : ofByteArray? n v.toByteArray = some v := by
  simp [ofByteArray?, v.size_eq]

theorem ofByteArray?_eq_some_iff {b : ByteArray} {v : ByteVector n} :
    ofByteArray? n b = some v ↔ v.toByteArray = b := by
  constructor
  · intro h
    simp only [ofByteArray?] at h
    split at h
    · cases h; rfl
    · cases h
  · rintro rfl
    exact ofByteArray?_toByteArray v

end ByteVector

end Trustless
