import Trustless.Guarded.Basic
import Trustless.Merkle.RangeProof

/-!
# Checking a range proof in words

The check of a range proof, with every step that counts taken in words: leaves and sizes have 64
bits, and heights of trees 32.

* `Guarded.firstBlock`, `Guarded.tiling`: the blocks beside a range.
* `Guarded.pushTrees`: a push, which raises the height of what is joined.
* `Guarded.verifyRange`: the whole check.
-/

namespace Trustless.Guarded

open Merkle

variable {α : Type}

/-! ## Blocks -/

/-- The height and the size of a block that may start at `start`, at most `tries` above the given
ones. -/
def alignedBlock (start : Nat) : (tries height size : Nat) → Guarded MerkleError (Nat × Nat)
  | 0, height, size => pure (height, size)
  | tries + 1, height, size => do
    let double ← word (size * 2)
    if start % double = 0 then
      let next ← shortWord (height + 1)
      alignedBlock start tries next double
    else return (height, size)

/-- The largest block that is aligned at `start` and ends at `stop` or before. -/
def firstBlock (start stop : Nat) : Guarded MerkleError Block := do
  if stop ≤ start then throw (.invalidSubtreeRange start stop)
  let (height, size) ← alignedBlock start (maxHeight - 1) 1 1
  let range ← minus stop start
  let greatest ← shiftLeft 1 range.log2
  let greatestHeight ← shortWord (range.log2 + 1)
  if height < greatestHeight then return ⟨height, size⟩
  else return ⟨greatestHeight, greatest⟩

/-- The first `fuel` blocks that cover a range. -/
def tiling : (fuel start stop : Nat) → Guarded MerkleError (List Block)
  | 0, _, _ => pure []
  | fuel + 1, start, stop => do
    if start < stop then
      let b ← firstBlock start stop
      let next ← word (start + b.size)
      let rest ← tiling fuel next stop
      return b :: rest
    else return []

/-! ## Trees -/

/-- Puts a tree in front of a row. -/
def pushTrees (join : α → α → α) (t : Subtree α) :
    List (Subtree α) → Guarded MerkleError (List (Subtree α))
  | [] => pure [t]
  | top :: rest => do
    if t.height > top.height then throw (.subtreeTooTall t.height top.height)
    else if t.height < top.height then return t :: top :: rest
    else
      let height ← shortWord (t.height + 1)
      pushTrees join ⟨join top.root t.root, height⟩ rest

/-- Puts a tree behind the others. -/
def push (join : α → α → α) (t : Subtree α) (f : Forest α) : Guarded MerkleError (Forest α) := do
  let trees ← pushTrees join t f.trees
  return ⟨trees⟩

/-- Puts several trees behind the others, in order. -/
def pushAll (join : α → α → α) : List (Subtree α) → Forest α → Guarded MerkleError (Forest α)
  | [], f => pure f
  | t :: ts, f => do
    let next ← push join t f
    pushAll join ts next

/-- Puts the hashes of leaves behind the trees, in order. -/
def pushLeaves (H : Hasher) : List ByteArray → Forest Digest → Guarded MerkleError (Forest Digest)
  | [], f => pure f
  | b :: bs, f => do
    if b.size ≠ Sector.leafSize then throw (.leafSize b.size)
    let next ← push H.node ⟨H.leaf b, 1⟩ f
    pushLeaves H bs next

/-! ## The check -/

/-- The first leaf of a range of bytes and the leaf after its last one. -/
def leafRange (offset size : Nat) : Guarded MerkleError (Nat × Nat) := do
  if size = 0 then throw .emptyRange
  match (checkedAdd offset size).filter (· ≤ Sector.size) with
  | none => throw (.rangeOutOfBounds offset size)
  | some stop =>
    if offset % Sector.leafSize ≠ 0 ∨ size % Sector.leafSize ≠ 0 then
      throw (.misaligned offset size)
    return (offset / Sector.leafSize, stop / Sector.leafSize)

/-- Checks that `data` stands at bytes `offset` to `offset + size` of the sector with the given
root. -/
def verifyRange (H : Hasher) (root : Digest) (offset size : Nat) (data proof : ByteArray) :
    Guarded MerkleError Unit := do
  let (first, last) ← leafRange offset size
  if data.size ≠ size then throw (.dataLength size data.size)
  let before ← tiling first 0 first
  let after ← tiling (Sector.leaves - last) last Sector.leaves
  let count ← word (before.length + after.length)
  let expected ← word (count * 32)
  if proof.size ≠ expected then throw (.proofLength expected proof.size)
  let roots := RangeProof.hashes proof
  let forest ← pushAll H.node (RangeProof.subtrees roots before) .empty
  let forest ← pushLeaves H (Bytes.chunks data Sector.leafSize) forest
  let forest ← pushAll H.node (RangeProof.subtrees (roots.drop before.length) after) forest
  let found ← of (forest.root H.node)
  if found ≠ root then throw .rootMismatch

end Trustless.Guarded
