import Trustless.Merkle.Forest
import Trustless.Merkle.Tiling

/-!
# Proofs that data stands at a place of a sector

A proof for a range of leaves holds the roots of the subtrees before the range and after it, as
`tiling` lists them. The verifier puts the given roots and the leaves of the data behind each other
and compares the root of the whole sector.

* `RangeProof.verify`: checks data and proof against a root.
* `RangeProof.build`: the proof for a range of a sector.
-/

namespace Trustless.RangeProof

open Merkle

/-- The first leaf of a range of bytes and the leaf after its last one. -/
def leafRange (offset size : Nat) : Except MerkleError (Nat × Nat) :=
  if size = 0 then .error .emptyRange
  else if offset + size > Sector.size then .error (.rangeOutOfBounds offset size)
  else if offset % Sector.leafSize ≠ 0 ∨ size % Sector.leafSize ≠ 0 then
    .error (.misaligned offset size)
  else .ok (offset / Sector.leafSize, (offset + size) / Sector.leafSize)

/-- The blocks before a range of leaves of a sector. -/
def blocksBefore (first : Nat) : List Block :=
  tiling 0 first

/-- The blocks after a range of leaves of a sector. -/
def blocksAfter (last : Nat) : List Block :=
  tiling last Sector.leaves

/-- The hashes of which a proof consists. -/
def hashes (proof : ByteArray) : List Digest :=
  (List.range (proof.size / 32)).map fun i => ByteVector.sliceD proof (32 * i) 32

/-- Subtrees with given roots. -/
def subtrees (roots : List Digest) (blocks : List Block) : List (Subtree Digest) :=
  List.zipWith (fun r b => ⟨r, b.height⟩) roots blocks

/-- Checks that `data` stands at bytes `offset` to `offset + size` of the sector with the given
root. -/
def verify (H : Hasher) (root : Digest) (offset size : Nat) (data proof : ByteArray) :
    Except MerkleError Unit := do
  let (first, last) ← leafRange offset size
  if data.size ≠ size then throw (.dataLength size data.size)
  let before := blocksBefore first
  let after := blocksAfter last
  let expected := 32 * (before.length + after.length)
  if proof.size ≠ expected then throw (.proofLength expected proof.size)
  let roots := hashes proof
  let forest ← Forest.empty.pushAll H.node (subtrees roots before)
  let forest ← H.pushLeaves (Bytes.chunks data Sector.leafSize) forest
  let forest ← forest.pushAll H.node (subtrees (roots.drop before.length) after)
  let found ← forest.root H.node
  if found ≠ root then throw .rootMismatch

/-- The roots of consecutive blocks of leaves of a sector, from leaf `start` on. -/
def rootsOf (H : Hasher) (sector : ByteArray) (start : Nat) :
    List Block → Except MerkleError ByteArray
  | [] => .ok .empty
  | b :: bs => do
    let data := sector.extract (start * Sector.leafSize) ((start + b.size) * Sector.leafSize)
    let root ← H.merkleRoot data
    let rest ← rootsOf H sector (start + b.size) bs
    .ok (root.toByteArray ++ rest)

/-- The proof for bytes `offset` to `offset + size` of a sector. -/
def build (H : Hasher) (sector : ByteArray) (offset size : Nat) : Except MerkleError ByteArray := do
  if sector.size ≠ Sector.size then throw (.dataLength Sector.size sector.size)
  let (first, last) ← leafRange offset size
  let before ← rootsOf H sector 0 (blocksBefore first)
  let after ← rootsOf H sector last (blocksAfter last)
  return before ++ after

end Trustless.RangeProof
