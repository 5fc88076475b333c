import Trustless.Hash.Blake2b
import Trustless.Key
import Trustless.Link.Basic
import Trustless.Registry.Error

/-!
# Registry entries

The registry maps a public key and a data key to a small value with a revision number, signed by the
owner. What is signed is a hash of the data key, the value and the revision; an entry is named by a
hash of both keys.

* `Entry.hashInput`, `Entry.nameInput`: exactly what is hashed.
* `Entry.sign`, `Entry.verify`: the owner's signature.
-/

namespace Trustless.Registry

/-- The most bytes an entry may hold. -/
def maxDataSize : Nat := 86

/-- The kind of public keys, as it enters the name of an entry. -/
def keyKind : ByteVector 16 :=
  ⟨⟨#[0x65, 0x64, 0x32, 0x35, 0x35, 0x31, 0x39, 0, 0, 0, 0, 0, 0, 0, 0, 0]⟩, rfl⟩

/-- A signed value. -/
structure Entry where
  data : ByteArray
  revision : UInt64
  signature : Signature
deriving DecidableEq

namespace Entry

/-- What is hashed for the name of an entry. -/
def nameInput (owner : PublicKey) (dataKey : ByteVector 32) : ByteArray :=
  keyKind.toByteArray ++ (Bytes.ofU64 32).toByteArray ++ owner.bytes.toByteArray
    ++ dataKey.toByteArray

/-- The name of the entry under two keys. -/
def name (owner : PublicKey) (dataKey : ByteVector 32) : Digest :=
  Hash.blake2b (nameInput owner dataKey)

/-- The link that resolves through an entry. -/
def link (owner : PublicKey) (dataKey : ByteVector 32) : Link :=
  Link.toEntry (name owner dataKey)

/-- What is hashed for the signature of an entry. -/
def hashInput (dataKey : ByteVector 32) (data : ByteArray) (revision : UInt64) : ByteArray :=
  dataKey.toByteArray ++ Bytes.lengthPrefixed data ++ (Bytes.ofU64 revision).toByteArray

/-- What the owner signs. -/
def hash (dataKey : ByteVector 32) (data : ByteArray) (revision : UInt64) : Digest :=
  Hash.blake2b (hashInput dataKey data revision)

/-- Signs a value. The revision is the caller's choice. -/
def sign (keypair : Keypair) (dataKey : ByteVector 32) (data : ByteArray) (revision : UInt64) :
    Except RegistryError Entry :=
  if data.size > maxDataSize then .error (.dataTooLarge data.size)
  else .ok ⟨data, revision, keypair.sign (hash dataKey data revision).toByteArray⟩

/-- Whether an entry is signed by its owner. -/
def verify (e : Entry) (owner : PublicKey) (dataKey : ByteVector 32) : Bool :=
  owner.verify (hash dataKey e.data e.revision).toByteArray e.signature

end Entry

end Trustless.Registry
