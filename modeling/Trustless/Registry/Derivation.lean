import Trustless.Key
import Trustless.Registry.Error

/-!
# The keys of a user

One root seed of 16 bytes gives a user any number of registry entries. Two tags choose one of them:
the keypair is hashed from the seed and the first tag, the data key from the seed, the length of the
first tag and both tags. The length keeps apart the pairs of tags that read the same in a row, since
a tag has at most 255 bytes. Nothing keeps apart the two kinds of hashed texts: a tag may itself read
like the length and the tags of a data key.
-/

namespace Trustless.Registry

/-- The bytes of a root seed. -/
def seedSize : Nat := 16

/-- The longest keypair tag in bytes. -/
def maxTagSize : Nat := 255

/-- A user's secret seed. -/
structure RootSeed where
  bytes : ByteVector seedSize
deriving DecidableEq

namespace RootSeed

/-- Takes bytes as a seed if there are 16 of them. -/
def parse (b : ByteArray) : Except RegistryError RootSeed :=
  match ByteVector.ofByteArray? seedSize b with
  | some v => .ok ⟨v⟩
  | none => .error (.seedLength b.size)

/-- The seed for a log, which shows nothing of it. -/
def summary (_ : RootSeed) : String :=
  "RootSeed(<redacted>)"

end RootSeed

/-- What it takes to write an entry: the keypair of its owner and the data key. -/
structure EntryKeys where
  keypair : Keypair
  dataKey : ByteVector 32
deriving DecidableEq

namespace EntryKeys

/-- What is hashed for the secret seed of a keypair. -/
def keypairInput (seed : ByteArray) (keypairTag : String) : ByteArray :=
  seed ++ Bytes.ofString keypairTag

/-- What is hashed for a data key. -/
def dataKeyInput (seed : ByteArray) (keypairTag dataKeyTag : String) : ByteArray :=
  (seed.push (Bytes.ofString keypairTag).size.toUInt8) ++ Bytes.ofString keypairTag
    ++ Bytes.ofString dataKeyTag

/-- The first half of a SHA-512 hash. -/
def halfHash (b : ByteArray) : ByteVector 32 :=
  let h := Hash.sha512 b
  ByteVector.slice h.toByteArray 0 32 (by have := h.size_eq; omega)

/-- The keys for a pair of tags. -/
def derive (seed : ByteArray) (keypairTag dataKeyTag : String) : Except RegistryError EntryKeys :=
  let tagSize := (Bytes.ofString keypairTag).size
  if seed.size ≠ seedSize then .error (.seedLength seed.size)
  else if tagSize > maxTagSize then .error (.keypairTagTooLong tagSize)
  else .ok {
    keypair := ⟨halfHash (keypairInput seed keypairTag)⟩
    dataKey := halfHash (dataKeyInput seed keypairTag dataKeyTag) }

/-- The public key of the owner. -/
def publicKey (k : EntryKeys) : PublicKey :=
  k.keypair.publicKey

end EntryKeys

end Trustless.Registry
