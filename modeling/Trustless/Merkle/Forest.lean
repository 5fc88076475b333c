import Trustless.Merkle.Error
import Trustless.Merkle.Hasher

/-!
# A forest of perfect trees

A Merkle root is computed from left to right, with at most one unfinished tree of every height in
memory: the trees stand in a row, from tall to low, and a tree that meets one of its own height is
joined with it, as in a binary counter. `Forest` is that row, the newest tree first. It does not
look into what it keeps of a tree, so that the same steps can be run on hashes and on whole trees.

* `Forest.push`: puts a tree behind the others and joins as long as heights agree.
* `Forest.root`: joins what is left, the newest tree on the right.
* `pushLeaf`, `pushLeaves`, `merkleRoot`: the forest of the hashes of leaves.
-/

namespace Trustless

/-- What is kept of a perfect tree with `2 ^ (height - 1)` leaves. -/
structure Subtree (α : Type) where
  root : α
  height : Nat
deriving DecidableEq, Repr

/-- A row of perfect trees, the newest first. -/
structure Forest (α : Type) where
  trees : List (Subtree α)
deriving DecidableEq, Repr

namespace Forest

variable {α : Type}

/-- The forest without trees. -/
def empty : Forest α :=
  ⟨[]⟩

/-- How many trees there are. -/
def size (f : Forest α) : Nat :=
  f.trees.length

/-- Whether there is no tree. -/
def isEmpty (f : Forest α) : Bool :=
  f.trees.isEmpty

/-- Puts a tree in front of a row and joins as long as heights agree. A tree that is taller than the
newest one is refused. -/
def pushTrees (join : α → α → α) (t : Subtree α) :
    List (Subtree α) → Except MerkleError (List (Subtree α))
  | [] => .ok [t]
  | top :: rest =>
    if t.height > top.height then .error (.subtreeTooTall t.height top.height)
    else if t.height < top.height then .ok (t :: top :: rest)
    else pushTrees join ⟨join top.root t.root, t.height + 1⟩ rest

/-- Puts a tree behind the others. -/
def push (join : α → α → α) (t : Subtree α) (f : Forest α) : Except MerkleError (Forest α) :=
  (pushTrees join t f.trees).map Forest.mk

/-- Puts several trees behind the others, in order. -/
def pushAll (join : α → α → α) (ts : List (Subtree α)) (f : Forest α) :
    Except MerkleError (Forest α) :=
  ts.foldlM (fun f t => push join t f) f

/-- The root over all trees: each older tree is joined on the left of what is newer. -/
def root (join : α → α → α) (f : Forest α) : Except MerkleError α :=
  match f.trees with
  | [] => .error .emptyStack
  | newest :: older => .ok (older.foldl (fun acc t => join t.root acc) newest.root)

end Forest

namespace Hasher

/-- Puts the hash of a leaf behind the trees. -/
def pushLeaf (H : Hasher) (leaf : ByteArray) (f : Forest Digest) :
    Except MerkleError (Forest Digest) :=
  if leaf.size = Sector.leafSize then f.push H.node ⟨H.leaf leaf, 1⟩
  else .error (.leafSize leaf.size)

/-- Puts the hashes of leaves behind the trees, in order. -/
def pushLeaves (H : Hasher) (leaves : List ByteArray) (f : Forest Digest) :
    Except MerkleError (Forest Digest) :=
  leaves.foldlM (fun f leaf => pushLeaf H leaf f) f

/-- The Merkle root of data that is cut into leaves. -/
def merkleRoot (H : Hasher) (data : ByteArray) : Except MerkleError Digest :=
  if data.size % Sector.leafSize ≠ 0 then .error (.dataNotAligned data.size)
  else do
    let forest ← pushLeaves H (Bytes.chunks data Sector.leafSize) .empty
    forest.root H.node

end Hasher

end Trustless
