import Trustless.Merkle.Error

/-!
# Covering a range of leaves with perfect trees

A range proof names the subtrees beside the proven range. Which ones follows from the range alone:
from left to right, always the tallest tree that is aligned at the current leaf and does not reach
beyond the end.
-/

namespace Trustless.Merkle

/-- A perfect tree over `size = 2 ^ (height - 1)` leaves. -/
structure Block where
  height : Nat
  size : Nat
deriving DecidableEq, Repr

/-- The greatest height a block may have. -/
def maxHeight : Nat := 53

/-- The greatest height, at most `tries` above `height`, of a block that may start at `start`. -/
def alignedHeight (start : Nat) : (tries height : Nat) → Nat
  | 0, height => height
  | tries + 1, height =>
    if start % (1 <<< height) = 0 then alignedHeight start tries (height + 1) else height

/-- The block of a height. -/
def Block.ofHeight (height : Nat) : Block :=
  ⟨height, 1 <<< (height - 1)⟩

/-- The largest block that is aligned at `start` and ends at `stop` or before. -/
def firstBlock (start stop : Nat) : Block :=
  .ofHeight (min (alignedHeight start (maxHeight - 1) 1) ((stop - start).log2 + 1))

/-- The largest block that is aligned at `start` and ends at `stop` or before; there is one unless
the range is empty. -/
def firstBlock? (start stop : Nat) : Except MerkleError Block :=
  if stop ≤ start then .error (.invalidSubtreeRange start stop)
  else .ok (firstBlock start stop)

/-- The first `fuel` blocks that cover a range. -/
def tilingWith : (fuel start stop : Nat) → List Block
  | 0, _, _ => []
  | fuel + 1, start, stop =>
    if start < stop then
      let b := firstBlock start stop
      b :: tilingWith fuel (start + b.size) stop
    else []

/-- The blocks that cover a range, from left to right. -/
def tiling (start stop : Nat) : List Block :=
  tilingWith (stop - start) start stop

end Trustless.Merkle
