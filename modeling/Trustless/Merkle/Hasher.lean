import Trustless.Hash.Blake2b
import Trustless.Hash.Blake3

/-!
# Sectors, and the hashes of leaves and nodes

A sector is the unit that portals store: 4 MiB of data, committed to by a Merkle tree over its
65536 leaves of 64 bytes. Such a tree can be built over any hash function. Leaves and inner nodes
are hashed after a byte that tells them apart, so that no leaf can pass for a node.

* `Sector.size`, `Sector.leafSize`, `Sector.leaves`: the sizes of a sector.
* `Hasher.leafInput`, `Hasher.nodeInput`: exactly what is hashed.
-/

namespace Trustless

namespace Sector

/-- The bytes of a sector. -/
def size : Nat := 4194304

/-- The bytes of a leaf. -/
def leafSize : Nat := 64

/-- The leaves of a sector. -/
def leaves : Nat := 65536

end Sector

/-- A hash function with 32-byte values. -/
structure Hasher where
  hash : ByteArray → Digest

namespace Hasher

/-- What is hashed for a leaf. -/
def leafInput (leaf : ByteArray) : ByteArray :=
  ByteArray.mk #[0] ++ leaf

/-- What is hashed for a node. -/
def nodeInput (left right : Digest) : ByteArray :=
  ByteArray.mk #[1] ++ left.toByteArray ++ right.toByteArray

/-- The hash of a leaf. -/
def leaf (H : Hasher) (leaf : ByteArray) : Digest :=
  H.hash (leafInput leaf)

/-- The hash of the node over two subtrees. -/
def node (H : Hasher) (left right : Digest) : Digest :=
  H.hash (nodeInput left right)

/-- The hash function of sectors and registry entries. -/
def blake2b : Hasher := ⟨Hash.blake2b⟩

/-- An alternative hash function for trees. -/
def blake3 : Hasher := ⟨Hash.blake3⟩

end Hasher

end Trustless
