import Trustless.Hash.Words

/-!
# BLAKE3 with a 32-byte digest

A message is cut into pieces of 1024 bytes, and these into blocks of 64. Every piece is hashed block
by block to a chaining value; the pieces are the leaves of a binary tree whose left subtrees are
full, and the hash is the value of its topmost node, marked as such.
-/

namespace Trustless.Hash.Blake3

/-- One mixing step: four state words and two message words. -/
@[inline] def mix (a b c d x y : UInt32) : UInt32 × UInt32 × UInt32 × UInt32 :=
  let a := a + b + x
  let d := rotr32 (d ^^^ a) 16
  let c := c + d
  let b := rotr32 (b ^^^ c) 12
  let a := a + b + y
  let d := rotr32 (d ^^^ a) 8
  let c := c + d
  let b := rotr32 (b ^^^ c) 7
  (a, b, c, d)

/-- One round: the four columns of the state, then its four diagonals. -/
def round (v m : HalfRow16) : HalfRow16 :=
  let (a0, b0, c0, d0) := mix v.w0 v.w4 v.w8 v.w12 m.w0 m.w1
  let (a1, b1, c1, d1) := mix v.w1 v.w5 v.w9 v.w13 m.w2 m.w3
  let (a2, b2, c2, d2) := mix v.w2 v.w6 v.w10 v.w14 m.w4 m.w5
  let (a3, b3, c3, d3) := mix v.w3 v.w7 v.w11 v.w15 m.w6 m.w7
  let (a0, b1, c2, d3) := mix a0 b1 c2 d3 m.w8 m.w9
  let (a1, b2, c3, d0) := mix a1 b2 c3 d0 m.w10 m.w11
  let (a2, b3, c0, d1) := mix a2 b3 c0 d1 m.w12 m.w13
  let (a3, b0, c1, d2) := mix a3 b0 c1 d2 m.w14 m.w15
  ⟨a0, a1, a2, a3, b0, b1, b2, b3, c0, c1, c2, c3, d0, d1, d2, d3⟩

/-- The order of the message words for the following round. -/
def shuffle (m : HalfRow16) : HalfRow16 :=
  ⟨m.w2, m.w6, m.w3, m.w10, m.w7, m.w0, m.w4, m.w13,
    m.w1, m.w11, m.w12, m.w5, m.w9, m.w14, m.w15, m.w8⟩

/-- `n` rounds, with the message words shuffled between them. -/
def rounds : Nat → HalfRow16 → HalfRow16 → HalfRow16
  | 0, v, _ => v
  | n + 1, v, m => rounds n (round v m) (shuffle m)

/-- The fractional bits of the square roots of the first eight primes, 32 of each. -/
def primeRoots : HalfRow8 :=
  ⟨0x6a09e667, 0xbb67ae85, 0x3c6ef372, 0xa54ff53a, 0x510e527f, 0x9b05688c, 0x1f83d9ab, 0x5be0cd19⟩

/-- A compression that has still to be done: it is done once with or once without the mark of the
topmost node. -/
structure Pending where
  chain : HalfRow8
  block : HalfRow16
  counter : UInt64
  length : UInt32
  marks : UInt32

/-- Marks of a compression: first block of a piece, last block of a piece, inner node, topmost
node. -/
def firstMark : UInt32 := 1
@[inherit_doc firstMark] def lastMark : UInt32 := 2
@[inherit_doc firstMark] def innerMark : UInt32 := 4
@[inherit_doc firstMark] def topMark : UInt32 := 8

/-- Does the compression, with further marks. -/
def Pending.finish (p : Pending) (marks : UInt32) : HalfRow8 :=
  let h := p.chain
  let k := primeRoots
  let v := rounds 7 ⟨h.w0, h.w1, h.w2, h.w3, h.w4, h.w5, h.w6, h.w7, k.w0, k.w1, k.w2, k.w3,
    p.counter.toUInt32, (p.counter >>> 32).toUInt32, p.length, p.marks ||| marks⟩ p.block
  ⟨v.w0 ^^^ v.w8, v.w1 ^^^ v.w9, v.w2 ^^^ v.w10, v.w3 ^^^ v.w11,
    v.w4 ^^^ v.w12, v.w5 ^^^ v.w13, v.w6 ^^^ v.w14, v.w7 ^^^ v.w15⟩

/-- The chaining value after the first `n` blocks of the piece, none of which is its last. -/
def absorb (msg : ByteArray) (piece : Nat) : Nat → HalfRow8
  | 0 => primeRoots
  | n + 1 =>
    Pending.finish ⟨absorb msg piece n, HalfRow16.read msg (1024 * piece + 64 * n),
      piece.toUInt64, 64, if n = 0 then firstMark else 0⟩ 0

/-- The last compression of a piece. -/
def pieceNode (msg : ByteArray) (piece : Nat) : Pending :=
  let size := min 1024 (msg.size - 1024 * piece)
  let n := (size - 1) / 64
  ⟨absorb msg piece n, HalfRow16.read (msg.extract 0 (1024 * piece + size)) (1024 * piece + 64 * n),
    piece.toUInt64, (size - 64 * n).toUInt32, lastMark ||| (if n = 0 then firstMark else 0)⟩

/-- The node over two subtrees. -/
def innerNode (l r : HalfRow8) : Pending :=
  ⟨primeRoots, ⟨l.w0, l.w1, l.w2, l.w3, l.w4, l.w5, l.w6, l.w7,
    r.w0, r.w1, r.w2, r.w3, r.w4, r.w5, r.w6, r.w7⟩, 0, 64, innerMark⟩

/-- The topmost node over `count` pieces from number `piece` on, at most `2 ^ height` of them. -/
def tree (msg : ByteArray) : (height piece count : Nat) → Pending
  | 0, piece, _ => pieceNode msg piece
  | height + 1, piece, count =>
    if count ≤ 1 <<< height then tree msg height piece count
    else innerNode ((tree msg height piece (1 <<< height)).finish 0)
      ((tree msg height (piece + (1 <<< height)) (count - (1 <<< height))).finish 0)

/-- How many pieces a message has; the empty message has one, which is empty. -/
def pieces (size : Nat) : Nat :=
  (size - 1) / 1024 + 1

end Blake3

/-- The 32-byte BLAKE3 hash of a message. -/
def blake3 (msg : ByteArray) : Digest :=
  let count := Blake3.pieces msg.size
  ((Blake3.tree msg (count.log2 + 1) 0 count).finish Blake3.topMark).toBytes

end Trustless.Hash
