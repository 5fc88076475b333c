import Trustless.Bytes.LittleEndian

/-!
# Rows of machine words

The hash functions work on rows of eight and sixteen words. They are structures of plain words, so
that a row is one flat object and no word is boxed.
-/

namespace Trustless.Hash

/-- Eight 64-bit words. -/
structure Row8 where
  (w0 w1 w2 w3 w4 w5 w6 w7 : UInt64)
deriving DecidableEq

/-- Sixteen 64-bit words. -/
structure Row16 where
  (w0 w1 w2 w3 w4 w5 w6 w7 w8 w9 w10 w11 w12 w13 w14 w15 : UInt64)
deriving DecidableEq

/-- Eight 32-bit words. -/
structure HalfRow8 where
  (w0 w1 w2 w3 w4 w5 w6 w7 : UInt32)
deriving DecidableEq

/-- Sixteen 32-bit words. -/
structure HalfRow16 where
  (w0 w1 w2 w3 w4 w5 w6 w7 w8 w9 w10 w11 w12 w13 w14 w15 : UInt32)
deriving DecidableEq

/-- The word with its bits moved `n` places down and around. -/
@[inline] def rotr (x n : UInt64) : UInt64 :=
  (x >>> n) ||| (x <<< (64 - n))

/-- The half word with its bits moved `n` places down and around. -/
@[inline] def rotr32 (x n : UInt32) : UInt32 :=
  (x >>> n) ||| (x <<< (32 - n))

/-- The bytes of a word in the opposite order. -/
@[inline] def byteSwap (x : UInt64) : UInt64 :=
  let y := ((x &&& 0x00FF00FF00FF00FF) <<< 8) ||| ((x >>> 8) &&& 0x00FF00FF00FF00FF)
  let z := ((y &&& 0x0000FFFF0000FFFF) <<< 16) ||| ((y >>> 16) &&& 0x0000FFFF0000FFFF)
  (z <<< 32) ||| (z >>> 32)

namespace Row8

/-- The fractional bits of the square roots of the first eight primes. -/
def primeRoots : Row8 :=
  ⟨0x6a09e667f3bcc908, 0xbb67ae8584caa73b, 0x3c6ef372fe94f82b, 0xa54ff53a5f1d36f1,
    0x510e527fade682d1, 0x9b05688c2b3e6c1f, 0x1f83d9abfb41bd6b, 0x5be0cd19137e2179⟩

/-- The words in order, each least significant byte first. -/
def toBytes (r : Row8) : ByteVector 64 :=
  Bytes.ofU64 r.w0 ++ Bytes.ofU64 r.w1 ++ Bytes.ofU64 r.w2 ++ Bytes.ofU64 r.w3
    ++ Bytes.ofU64 r.w4 ++ Bytes.ofU64 r.w5 ++ Bytes.ofU64 r.w6 ++ Bytes.ofU64 r.w7

/-- The words in order, each most significant byte first. -/
def toBytesBig (r : Row8) : ByteVector 64 :=
  toBytes ⟨byteSwap r.w0, byteSwap r.w1, byteSwap r.w2, byteSwap r.w3,
    byteSwap r.w4, byteSwap r.w5, byteSwap r.w6, byteSwap r.w7⟩

end Row8

namespace Row16

/-- The sixteen words at position `i` of a byte string, zero beyond its end. -/
def read (b : ByteArray) (i : Nat) : Row16 :=
  ⟨Bytes.u64 b i, Bytes.u64 b (i + 8), Bytes.u64 b (i + 16), Bytes.u64 b (i + 24),
    Bytes.u64 b (i + 32), Bytes.u64 b (i + 40), Bytes.u64 b (i + 48), Bytes.u64 b (i + 56),
    Bytes.u64 b (i + 64), Bytes.u64 b (i + 72), Bytes.u64 b (i + 80), Bytes.u64 b (i + 88),
    Bytes.u64 b (i + 96), Bytes.u64 b (i + 104), Bytes.u64 b (i + 112), Bytes.u64 b (i + 120)⟩

end Row16

namespace HalfRow8

/-- The words in order, each least significant byte first. -/
def toBytes (r : HalfRow8) : ByteVector 32 :=
  Bytes.ofU32 r.w0 ++ Bytes.ofU32 r.w1 ++ Bytes.ofU32 r.w2 ++ Bytes.ofU32 r.w3
    ++ Bytes.ofU32 r.w4 ++ Bytes.ofU32 r.w5 ++ Bytes.ofU32 r.w6 ++ Bytes.ofU32 r.w7

end HalfRow8

namespace HalfRow16

/-- The sixteen half words at position `i` of a byte string, zero beyond its end. -/
def read (b : ByteArray) (i : Nat) : HalfRow16 :=
  ⟨Bytes.u32 b i, Bytes.u32 b (i + 4), Bytes.u32 b (i + 8), Bytes.u32 b (i + 12),
    Bytes.u32 b (i + 16), Bytes.u32 b (i + 20), Bytes.u32 b (i + 24), Bytes.u32 b (i + 28),
    Bytes.u32 b (i + 32), Bytes.u32 b (i + 36), Bytes.u32 b (i + 40), Bytes.u32 b (i + 44),
    Bytes.u32 b (i + 48), Bytes.u32 b (i + 52), Bytes.u32 b (i + 56), Bytes.u32 b (i + 60)⟩

end HalfRow16

end Trustless.Hash
