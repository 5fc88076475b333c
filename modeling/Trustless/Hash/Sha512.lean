import Trustless.Hash.Words

/-!
# SHA-512

The hash under key derivation and signatures. A message is followed by a one bit, zeros and its
length in bits, so that it fills blocks of 128 bytes; each block is mixed into eight words in eighty
rounds, whose message words are grown from the block's sixteen.
-/

namespace Trustless.Hash.Sha512

/-- The fractional bits of the cube roots of the first eighty primes, one word for every round. -/
def constants : List UInt64 := [
  0x428a2f98d728ae22, 0x7137449123ef65cd, 0xb5c0fbcfec4d3b2f, 0xe9b5dba58189dbbc,
  0x3956c25bf348b538, 0x59f111f1b605d019, 0x923f82a4af194f9b, 0xab1c5ed5da6d8118,
  0xd807aa98a3030242, 0x12835b0145706fbe, 0x243185be4ee4b28c, 0x550c7dc3d5ffb4e2,
  0x72be5d74f27b896f, 0x80deb1fe3b1696b1, 0x9bdc06a725c71235, 0xc19bf174cf692694,
  0xe49b69c19ef14ad2, 0xefbe4786384f25e3, 0x0fc19dc68b8cd5b5, 0x240ca1cc77ac9c65,
  0x2de92c6f592b0275, 0x4a7484aa6ea6e483, 0x5cb0a9dcbd41fbd4, 0x76f988da831153b5,
  0x983e5152ee66dfab, 0xa831c66d2db43210, 0xb00327c898fb213f, 0xbf597fc7beef0ee4,
  0xc6e00bf33da88fc2, 0xd5a79147930aa725, 0x06ca6351e003826f, 0x142929670a0e6e70,
  0x27b70a8546d22ffc, 0x2e1b21385c26c926, 0x4d2c6dfc5ac42aed, 0x53380d139d95b3df,
  0x650a73548baf63de, 0x766a0abb3c77b2a8, 0x81c2c92e47edaee6, 0x92722c851482353b,
  0xa2bfe8a14cf10364, 0xa81a664bbc423001, 0xc24b8b70d0f89791, 0xc76c51a30654be30,
  0xd192e819d6ef5218, 0xd69906245565a910, 0xf40e35855771202a, 0x106aa07032bbd1b8,
  0x19a4c116b8d2d0c8, 0x1e376c085141ab53, 0x2748774cdf8eeb99, 0x34b0bcb5e19b48a8,
  0x391c0cb3c5c95a63, 0x4ed8aa4ae3418acb, 0x5b9cca4f7763e373, 0x682e6ff3d6b2b8a3,
  0x748f82ee5defb2fc, 0x78a5636f43172f60, 0x84c87814a1f0ab72, 0x8cc702081a6439ec,
  0x90befffa23631e28, 0xa4506cebde82bde9, 0xbef9a3f7b2c67915, 0xc67178f2e372532b,
  0xca273eceea26619c, 0xd186b8c721c0c207, 0xeada7dd6cde0eb1e, 0xf57d4f7fee6ed178,
  0x06f067aa72176fba, 0x0a637dc5a2c898a6, 0x113f9804bef90dae, 0x1b710b35131c471b,
  0x28db77f523047d84, 0x32caab7b40c72493, 0x3c9ebe0a15c9bebc, 0x431d67c49c100d4c,
  0x4cc5d4becb3e42b6, 0x597f299cfc657e2a, 0x5fcb6fab3ad6faec, 0x6c44198c4a475817]

/-- One round: mixes the oldest message word into the state. -/
def round (s : Row8) (w k : UInt64) : Row8 :=
  let s1 := rotr s.w4 14 ^^^ rotr s.w4 18 ^^^ rotr s.w4 41
  let choice := (s.w4 &&& s.w5) ^^^ (~~~ s.w4 &&& s.w6)
  let t1 := s.w7 + s1 + choice + k + w
  let s0 := rotr s.w0 28 ^^^ rotr s.w0 34 ^^^ rotr s.w0 39
  let majority := (s.w0 &&& s.w1) ^^^ (s.w0 &&& s.w2) ^^^ (s.w1 &&& s.w2)
  ⟨t1 + (s0 + majority), s.w0, s.w1, s.w2, s.w3 + t1, s.w4, s.w5, s.w6⟩

/-- Drops the oldest of the sixteen message words and grows a new one. -/
def slide (m : Row16) : Row16 :=
  let s0 := rotr m.w1 1 ^^^ rotr m.w1 8 ^^^ (m.w1 >>> 7)
  let s1 := rotr m.w14 19 ^^^ rotr m.w14 61 ^^^ (m.w14 >>> 6)
  ⟨m.w1, m.w2, m.w3, m.w4, m.w5, m.w6, m.w7, m.w8, m.w9, m.w10, m.w11, m.w12, m.w13, m.w14, m.w15,
    m.w0 + s0 + m.w9 + s1⟩

/-- The rounds of one block. -/
def rounds : List UInt64 → Row8 → Row16 → Row8
  | [], s, _ => s
  | k :: ks, s, m => rounds ks (round s m.w0 k) (slide m)

/-- The sixteen words at position `i`, each most significant byte first. -/
def readBlock (b : ByteArray) (i : Nat) : Row16 :=
  let m := Row16.read b i
  ⟨byteSwap m.w0, byteSwap m.w1, byteSwap m.w2, byteSwap m.w3, byteSwap m.w4, byteSwap m.w5,
    byteSwap m.w6, byteSwap m.w7, byteSwap m.w8, byteSwap m.w9, byteSwap m.w10, byteSwap m.w11,
    byteSwap m.w12, byteSwap m.w13, byteSwap m.w14, byteSwap m.w15⟩

/-- Mixes one block into the state. -/
def compress (h : Row8) (m : Row16) : Row8 :=
  let s := rounds constants h m
  ⟨h.w0 + s.w0, h.w1 + s.w1, h.w2 + s.w2, h.w3 + s.w3,
    h.w4 + s.w4, h.w5 + s.w5, h.w6 + s.w6, h.w7 + s.w7⟩

/-- The message, a one bit, zeros, and the length in bits as the last eight bytes. -/
def padded (msg : ByteArray) : ByteArray :=
  Bytes.pad (msg.push 0x80) 0 (8 + (239 - msg.size % 128) % 128)
    ++ (Bytes.ofU64 (byteSwap (8 * msg.size).toUInt64)).toByteArray

/-- Mixes the `n` blocks from number `i` on into the state. -/
def absorb (msg : ByteArray) (h : Row8) (i : Nat) : (n : Nat) → Row8
  | 0 => h
  | n + 1 => absorb msg (compress h (readBlock msg (128 * i))) (i + 1) n

end Sha512

/-- The 64-byte SHA-512 hash of a message. -/
def sha512 (msg : ByteArray) : ByteVector 64 :=
  let msg := Sha512.padded msg
  (Sha512.absorb msg Row8.primeRoots 0 (msg.size / 128)).toBytesBig

end Trustless.Hash
