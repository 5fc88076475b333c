import Trustless.Hash.Words

/-!
# BLAKE2b with a 32-byte digest

The hash that commits to sectors and names registry entries. A message is cut into blocks of 128
bytes, the last one filled up with zeros; each block is mixed into a state of eight words in twelve
rounds, together with the number of message bytes so far.
-/

namespace Trustless.Hash.Blake2b

/-- One mixing step: four state words and two message words. -/
@[inline] def mix (a b c d x y : UInt64) : UInt64 × UInt64 × UInt64 × UInt64 :=
  let a := a + b + x
  let d := rotr (d ^^^ a) 32
  let c := c + d
  let b := rotr (b ^^^ c) 24
  let a := a + b + y
  let d := rotr (d ^^^ a) 16
  let c := c + d
  let b := rotr (b ^^^ c) 63
  (a, b, c, d)

/-- One round: the four columns of the state, then its four diagonals. -/
def round (v m : Row16) : Row16 :=
  let (a0, b0, c0, d0) := mix v.w0 v.w4 v.w8 v.w12 m.w0 m.w1
  let (a1, b1, c1, d1) := mix v.w1 v.w5 v.w9 v.w13 m.w2 m.w3
  let (a2, b2, c2, d2) := mix v.w2 v.w6 v.w10 v.w14 m.w4 m.w5
  let (a3, b3, c3, d3) := mix v.w3 v.w7 v.w11 v.w15 m.w6 m.w7
  let (a0, b1, c2, d3) := mix a0 b1 c2 d3 m.w8 m.w9
  let (a1, b2, c3, d0) := mix a1 b2 c3 d0 m.w10 m.w11
  let (a2, b3, c0, d1) := mix a2 b3 c0 d1 m.w12 m.w13
  let (a3, b0, c1, d2) := mix a3 b0 c1 d2 m.w14 m.w15
  ⟨a0, a1, a2, a3, b0, b1, b2, b3, c0, c1, c2, c3, d0, d1, d2, d3⟩

/-- The twelve rounds, each with its own order of the message words; the last two repeat the
orders of the first two. -/
def rounds (v m : Row16) : Row16 :=
  let v := round v m
  let v := round v ⟨m.w14, m.w10, m.w4, m.w8, m.w9, m.w15, m.w13, m.w6,
    m.w1, m.w12, m.w0, m.w2, m.w11, m.w7, m.w5, m.w3⟩
  let v := round v ⟨m.w11, m.w8, m.w12, m.w0, m.w5, m.w2, m.w15, m.w13,
    m.w10, m.w14, m.w3, m.w6, m.w7, m.w1, m.w9, m.w4⟩
  let v := round v ⟨m.w7, m.w9, m.w3, m.w1, m.w13, m.w12, m.w11, m.w14,
    m.w2, m.w6, m.w5, m.w10, m.w4, m.w0, m.w15, m.w8⟩
  let v := round v ⟨m.w9, m.w0, m.w5, m.w7, m.w2, m.w4, m.w10, m.w15,
    m.w14, m.w1, m.w11, m.w12, m.w6, m.w8, m.w3, m.w13⟩
  let v := round v ⟨m.w2, m.w12, m.w6, m.w10, m.w0, m.w11, m.w8, m.w3,
    m.w4, m.w13, m.w7, m.w5, m.w15, m.w14, m.w1, m.w9⟩
  let v := round v ⟨m.w12, m.w5, m.w1, m.w15, m.w14, m.w13, m.w4, m.w10,
    m.w0, m.w7, m.w6, m.w3, m.w9, m.w2, m.w8, m.w11⟩
  let v := round v ⟨m.w13, m.w11, m.w7, m.w14, m.w12, m.w1, m.w3, m.w9,
    m.w5, m.w0, m.w15, m.w4, m.w8, m.w6, m.w2, m.w10⟩
  let v := round v ⟨m.w6, m.w15, m.w14, m.w9, m.w11, m.w3, m.w0, m.w8,
    m.w12, m.w2, m.w13, m.w7, m.w1, m.w4, m.w10, m.w5⟩
  let v := round v ⟨m.w10, m.w2, m.w8, m.w4, m.w7, m.w6, m.w1, m.w5,
    m.w15, m.w11, m.w9, m.w14, m.w3, m.w12, m.w13, m.w0⟩
  let v := round v m
  round v ⟨m.w14, m.w10, m.w4, m.w8, m.w9, m.w15, m.w13, m.w6,
    m.w1, m.w12, m.w0, m.w2, m.w11, m.w7, m.w5, m.w3⟩

/-- Mixes one block into the state. `count` is the number of message bytes up to and with this
block, and `last` says that no block follows. -/
def compress (h : Row8) (m : Row16) (count : UInt64) (last : Bool) : Row8 :=
  let k := Row8.primeRoots
  let v := rounds ⟨h.w0, h.w1, h.w2, h.w3, h.w4, h.w5, h.w6, h.w7, k.w0, k.w1, k.w2, k.w3,
    k.w4 ^^^ count, k.w5, if last then ~~~ k.w6 else k.w6, k.w7⟩ m
  ⟨h.w0 ^^^ v.w0 ^^^ v.w8, h.w1 ^^^ v.w1 ^^^ v.w9, h.w2 ^^^ v.w2 ^^^ v.w10,
    h.w3 ^^^ v.w3 ^^^ v.w11, h.w4 ^^^ v.w4 ^^^ v.w12, h.w5 ^^^ v.w5 ^^^ v.w13,
    h.w6 ^^^ v.w6 ^^^ v.w14, h.w7 ^^^ v.w7 ^^^ v.w15⟩

/-- The state before the first block: no key and a digest of 32 bytes. -/
def start : Row8 :=
  { Row8.primeRoots with w0 := Row8.primeRoots.w0 ^^^ 0x01010020 }

/-- Mixes the `n` blocks from number `i` on into the state; none of them is the last. -/
def absorb (msg : ByteArray) (h : Row8) (i : Nat) : (n : Nat) → Row8
  | 0 => h
  | n + 1 =>
    absorb msg (compress h (Row16.read msg (128 * i)) (128 * (i + 1)).toUInt64 false) (i + 1) n

/-- How many blocks come before the last one. The last block is empty only for the empty message. -/
def fullBlocks (size : Nat) : Nat :=
  (size - 1) / 128

end Blake2b

/-- The 32-byte BLAKE2b hash of a message. -/
def blake2b (msg : ByteArray) : Digest :=
  let n := Blake2b.fullBlocks msg.size
  let h := Blake2b.absorb msg Blake2b.start 0 n
  let h := Blake2b.compress h (Row16.read msg (128 * n)) msg.size.toUInt64 true
  Bytes.ofU64 h.w0 ++ Bytes.ofU64 h.w1 ++ Bytes.ofU64 h.w2 ++ Bytes.ofU64 h.w3

end Trustless.Hash
