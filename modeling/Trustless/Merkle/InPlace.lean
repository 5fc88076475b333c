import Trustless.Merkle.Forest

/-!
# A forest that is changed in place

`Forest.push` answers with a new forest or refuses. A single row in memory is changed step by step
instead: the trees that a push joins are off the row before it is known what the joined tree meets
next, and a push that is refused leaves the row as it then is. The definitions here keep that row.

* `Forest.pushInPlace`: a push, with its verdict and the forest that it leaves.
* `Piece`: what can be pushed.
* `Hasher.run`: the forest that pieces leave, and those among them that were accepted.
-/

namespace Trustless

namespace Forest

variable {α : Type}

/-- Puts a tree in front of a row: the verdict, and the row that is left. -/
def pushTreesInPlace (join : α → α → α) (t : Subtree α) :
    List (Subtree α) → Except MerkleError Unit × List (Subtree α)
  | [] => (.ok (), [t])
  | top :: rest =>
    if t.height > top.height then (.error (.subtreeTooTall t.height top.height), top :: rest)
    else if t.height < top.height then (.ok (), t :: top :: rest)
    else pushTreesInPlace join ⟨join top.root t.root, t.height + 1⟩ rest

/-- Puts a tree behind the others: the verdict, and the forest that is left. -/
def pushInPlace (join : α → α → α) (t : Subtree α) (f : Forest α) :
    Except MerkleError Unit × Forest α :=
  let left := pushTreesInPlace join t f.trees
  (left.1, ⟨left.2⟩)

end Forest

/-- What can be put behind the trees of a forest: a leaf, or a tree of which the root is given. -/
inductive Piece
  | leaf (bytes : ByteArray)
  | subtree (root : Digest) (height : Nat)

/-- The height of the tree that a piece is. -/
def Piece.height : Piece → Nat
  | leaf _ => 1
  | subtree _ height => height

namespace Hasher

/-- Puts a piece behind the trees. -/
def push (H : Hasher) (f : Forest Digest) : Piece → Except MerkleError (Forest Digest)
  | .leaf b => H.pushLeaf b f
  | .subtree root height => f.push H.node ⟨root, height⟩

/-- Puts a piece behind the trees: the verdict, and the forest that is left. -/
def pushInPlace (H : Hasher) (f : Forest Digest) : Piece → Except MerkleError Unit × Forest Digest
  | .leaf b =>
    if b.size = Sector.leafSize then f.pushInPlace H.node ⟨H.leaf b, 1⟩
    else (.error (.leafSize b.size), f)
  | .subtree root height => f.pushInPlace H.node ⟨root, height⟩

/-- The forest that pieces leave, put one after the other behind the trees of `f`, and those among
them that were accepted. -/
def run (H : Hasher) (f : Forest Digest) : List Piece → Forest Digest × List Piece
  | [] => (f, [])
  | p :: ps =>
    let next := H.pushInPlace f p
    let rest := H.run next.2 ps
    (rest.1, if next.1.isOk then p :: rest.2 else rest.2)

end Hasher

end Trustless
