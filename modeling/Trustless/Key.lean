import Trustless.Ed25519.Signature
import Trustless.Encoding.Hex

/-!
# Keys and signatures of registry entries

A keypair is determined by a secret seed of 32 bytes. Keys and signatures that come from elsewhere
are plain bytes: whether a key is a point of the curve is asked when it is parsed or used, and a
signature of another length than 64 bytes verifies nothing.
-/

namespace Trustless

/-- Why key material was refused. -/
inductive KeyError
  | invalidPublicKey
  | invalidSignature
deriving DecidableEq, Repr

/-- The wording of a key error. -/
def KeyError.message : KeyError → String
  | invalidPublicKey => "invalid public key bytes: not a valid Ed25519 point"
  | invalidSignature => "invalid signature bytes: expected 64 bytes"

/-- The public key of the owner of a registry entry. -/
structure PublicKey where
  bytes : ByteVector 32
deriving DecidableEq

/-- A signature. -/
structure Signature where
  bytes : ByteArray
deriving DecidableEq

/-- A keypair, given by its secret seed. -/
structure Keypair where
  seed : ByteVector 32
deriving DecidableEq

namespace PublicKey

/-- Takes bytes only if they are a key. -/
def parse (b : ByteArray) : Except KeyError PublicKey :=
  match ByteVector.ofByteArray? 32 b with
  | none => .error .invalidPublicKey
  | some v => if Ed25519.isKey v then .ok ⟨v⟩ else .error .invalidPublicKey

/-- The key in hex. -/
def toHex (k : PublicKey) : String :=
  k.bytes.toHex

/-- Whether a signature of a message is by the owner of the key. -/
def verify (k : PublicKey) (message : ByteArray) (s : Signature) : Bool :=
  match ByteVector.ofByteArray? 64 s.bytes with
  | none => false
  | some v => Ed25519.verify k.bytes message v

/-- The key for a log: its first sixteen digits. -/
def summary (k : PublicKey) : String :=
  s!"SkyPublicKey({(k.toHex.take 16).copy})"

end PublicKey

namespace Signature

/-- Takes bytes only if there are 64 of them. -/
def parse (b : ByteArray) : Except KeyError Signature :=
  if b.size = 64 then .ok ⟨b⟩ else .error .invalidSignature

/-- The signature in hex. -/
def toHex (s : Signature) : String :=
  Hex.encode s.bytes

/-- The signature for a log: the first eight digits and those from the 120th on, or all digits of
one that is too short for that. -/
def summary (s : Signature) : String :=
  let hex := s.toHex.toList
  let text := if hex.length < 128 then hex else hex.take 8 ++ ['.', '.', '.'] ++ hex.drop 120
  "SkySignature(" ++ String.ofList text ++ ")"

end Signature

namespace Keypair

/-- The public half. -/
def publicKey (k : Keypair) : PublicKey :=
  ⟨Ed25519.publicKey k.seed⟩

/-- Signs a message. -/
def sign (k : Keypair) (message : ByteArray) : Signature :=
  ⟨(Ed25519.sign k.seed message).toByteArray⟩

/-- The keypair for a log: only its public half. -/
def summary (k : Keypair) : String :=
  "SkyKeypair(pub=" ++ k.publicKey.toHex ++ ")"

end Keypair

end Trustless
