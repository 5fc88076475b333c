import Trustless.Key

/-!
# What a keypair vouches for

The public half of a keypair is a key and verifies what the keypair signs. For all seeds and messages
this is a law of the curve. Here it is a property of one keypair and one message, which is assumed
where it is needed, and computed where both are given.

* `PublicKey.parse_eq_ok_iff`: which bytes are read as a key.
* `Keypair.Vouches`, `Keypair.vouches_iff`: what a signature is for.
* `Keypair.zero`, `Keypair.vouches_zero_iff`: the keypair of the seed of zeros, with its key.
-/

namespace Trustless

/-- Only points of the curve are read as keys. -/
theorem PublicKey.parse_eq_ok_iff {b : ByteArray} {k : PublicKey} :
    parse b = .ok k ↔ b = k.bytes.toByteArray ∧ Ed25519.isKey k.bytes = true := by
  unfold parse
  constructor
  · intro h
    split at h
    · cases h
    · rename_i v hv
      split at h
      · rename_i hkey
        cases h
        exact ⟨(ByteVector.ofByteArray?_eq_some_iff.mp hv).symm, hkey⟩
      · cases h
  · rintro ⟨rfl, hkey⟩
    rw [ByteVector.ofByteArray?_toByteArray]
    exact if_pos hkey

namespace Keypair

variable {k : Keypair} {message : ByteArray}

/-- What a signature is for: the public half of the keypair is a key, and verifies the signature of
the message. -/
structure Vouches (k : Keypair) (message : ByteArray) : Prop where
  key : PublicKey.parse k.publicKey.bytes.toByteArray = .ok k.publicKey
  verifies : k.publicKey.verify message (k.sign message) = true

/-- What it takes of the curve that a keypair vouches for a message. -/
theorem vouches_iff : k.Vouches message ↔ Ed25519.isKey k.publicKey.bytes = true ∧
    Ed25519.verify k.publicKey.bytes message (Ed25519.sign k.seed message) = true := by
  have hverify : k.publicKey.verify message (k.sign message)
      = Ed25519.verify k.publicKey.bytes message (Ed25519.sign k.seed message) := by
    rw [PublicKey.verify, sign, ByteVector.ofByteArray?_toByteArray]
  rw [← hverify]
  constructor
  · exact fun h => ⟨(PublicKey.parse_eq_ok_iff.mp h.key).2, h.verifies⟩
  · exact fun ⟨hkey, hverifies⟩ => ⟨PublicKey.parse_eq_ok_iff.mpr ⟨rfl, hkey⟩, hverifies⟩

/-! ## The seed of zeros -/

/-- The keypair of the seed of zeros. -/
def zero : Keypair :=
  ⟨.zero 32⟩

/-- The key of the seed of zeros. -/
def zeroKey : ByteVector 32 :=
  Bytes.ofNat 32 0x29da598ba148c03aa643e21d77153265730d6f2ad0a8a3622da4b6cebc276a3b

theorem publicKey_zero : zero.publicKey = ⟨zeroKey⟩ := by
  decide +kernel

theorem isKey_zeroKey : Ed25519.isKey zeroKey = true := by
  decide +kernel

theorem parse_publicKey_zero :
    PublicKey.parse zero.publicKey.bytes.toByteArray = .ok zero.publicKey := by
  rw [publicKey_zero]
  exact PublicKey.parse_eq_ok_iff.mpr ⟨rfl, isKey_zeroKey⟩

/-- With the key computed, only the signature is left. -/
theorem vouches_zero_iff : zero.Vouches message ↔
    Ed25519.verify zeroKey message (Ed25519.sign (.zero 32) message) = true := by
  rw [vouches_iff, publicKey_zero]
  exact and_iff_right isKey_zeroKey

end Keypair

end Trustless
