import Trustless.Json.Value
import Trustless.Key
import Trustless.Link.Basic
import Trustless.Skyfile.Metadata

/-!
# Stored forms

The JSON values in which an application keeps keys, signatures, links and metadata. They are read
without the checks that apply to what comes from a portal: any 32 bytes are a key, and a signature
may have any length.
-/

namespace Trustless

open Json (Value)

/-- The field of the records that consist of bytes. -/
def storedBytes? (v : Value) : Option ByteArray :=
  match v.record? ["bytes"] with
  | some [b] => b.asBytes?
  | _ => none

/-- The stored form of a key. -/
def PublicKey.toValue (k : PublicKey) : Value :=
  .object [("bytes", .ofBytes k.bytes.toByteArray)]

/-- Reads the stored form of a key. -/
def PublicKey.ofValue? (v : Value) : Option PublicKey := do
  let b ← storedBytes? v
  (ByteVector.ofByteArray? 32 b).map PublicKey.mk

/-- The stored form of a signature. -/
def Signature.toValue (s : Signature) : Value :=
  .object [("bytes", .ofBytes s.bytes)]

/-- Reads the stored form of a signature. -/
def Signature.ofValue? (v : Value) : Option Signature :=
  (storedBytes? v).map Signature.mk

/-- Reads the stored form of metadata. -/
def Skyfile.Metadata.ofValue? (v : Value) : Option Skyfile.Metadata :=
  match v.record? ["Filename", "Length"] with
  | some [filename, length] => do
    let filename ← filename.asString?
    let length ← length.asNat?
    some ⟨filename, length.toUInt64⟩
  | _ => none

/-- The stored form of a link, which is its text. -/
def Link.toValue (l : Link) : Value :=
  .string l.toText

/-- Reads the stored form of a link; what is no text has no more to be said about. -/
def Link.ofValue (v : Value) : Except (Option LinkError) Link :=
  match v with
  | .string s => (Link.ofText s).mapError some
  | _ => .error none

end Trustless
