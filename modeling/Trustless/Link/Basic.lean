import Trustless.Link.Bitfield
import Trustless.Encoding.Base64

/-!
# Links

A link is 34 bytes: sixteen bits that say what it points at, and the Merkle root of a sector or the
name of a registry entry. Any 34 bytes are kept as a link, since a broken one has to be reported;
`Link.target` says what it points at. As a text, a link is base64.
-/

namespace Trustless

/-- The raw bytes of a link. -/
structure Link where
  bytes : ByteVector 34
deriving DecidableEq

namespace Link

/-- The sixteen bits that say what a link points at. -/
def bits (l : Link) : Nat :=
  (Bytes.byteAt l.bytes.toByteArray 0).toNat + 256 * (Bytes.byteAt l.bytes.toByteArray 1).toNat

/-- The root of a sector or the name of an entry. -/
def root (l : Link) : Digest :=
  ByteVector.slice l.bytes.toByteArray 2 32 (by have := l.bytes.size_eq; omega)

/-- What the link points at. -/
def target (l : Link) : Except LinkError Target :=
  Target.decode l.bits

/-- Whether the link points at anything. -/
def isValid (l : Link) : Bool :=
  l.target.isOk

/-- The link with given bits and root. -/
def ofBits (bits : Nat) (root : Digest) : Link :=
  ⟨(Bytes.ofNat 2 bits : ByteVector 2) ++ root⟩

/-- The link to `size` bytes at the start of the sector with a root. -/
def toData (size : Nat) (root : Digest) : Except LinkError Link :=
  (Target.encode size).map fun bits => ofBits bits root

/-- The link to a registry entry. -/
def toEntry (entry : Digest) : Link :=
  ofBits 1 entry

/-- Takes bytes as a link if there are 34 of them. -/
def ofBytes (b : ByteArray) : Except LinkError Link :=
  match ByteVector.ofByteArray? 34 b with
  | some v => .ok ⟨v⟩
  | none => .error (.wrongLength b.size)

/-- The link as URL-safe base64. -/
def toText (l : Link) : String :=
  Base64.encode l.bytes.toByteArray

/-- Reads a link from base64. -/
def ofText (s : String) : Except LinkError Link :=
  match Base64.decode s with
  | .ok b => ofBytes b
  | .error _ => .error .invalidText

/-- The link for a log. -/
def summary (l : Link) : String :=
  s!"Skylink({l.toText})"

end Link

end Trustless
