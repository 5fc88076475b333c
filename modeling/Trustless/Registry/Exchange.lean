import Trustless.Json.Value
import Trustless.Registry.Entry

/-!
# What portals are asked and answer about entries

An entry is read at a path that names both keys, and comes back as a JSON object with the data and
the signature in hex. It is written as a JSON object in which both are lists of numbers.

* `readPath`, `Entry.ofResponse`: reading.
* `Entry.writeRequest`: writing.
-/

namespace Trustless.Registry

open Json (Value)

/-- The path of the registry at a portal. -/
def path : String := "/skynet/registry"

/-- The kind of public keys, as portals call it. -/
def algorithm : String := "ed25519"

/-- The path at which an entry is read. -/
def readPath (owner : PublicKey) (dataKey : ByteVector 32) : String :=
  s!"{path}?publickey={algorithm}%3A{owner.toHex}&datakey={dataKey.toHex}"

/-- The entry type without the owner's key in the data, the only one that is supported. -/
def plainType : Nat := 1

/-- The entry type with the owner's key in the data. -/
def typeWithKey : Nat := 2

/-- Checks the type of an entry; without one it is plain. -/
def checkType : Option Value → Except RegistryError Unit
  | none => .ok ()
  | some v =>
    if v.asNat? = some plainType then .ok ()
    else if v.asNat? = some typeWithKey then .error (.unsupportedEntryType typeWithKey)
    else .error (.malformedResponse (.unrecognizedType v.compact))

/-- The text of a field that must be there. -/
def textField (v : Value) (field : String) : Except RegistryError String :=
  match v.field? field with
  | none => .error (.malformedResponse (.missing field))
  | some f =>
    match f.asString? with
    | none => .error (.malformedResponse (.notAString field))
    | some s => .ok s

/-- The signature written in a hex text, if there is one. -/
def signatureOfHex? (s : String) : Option Signature := do
  let b ← (Hex.decode s).toOption
  (Signature.parse b).toOption

/-- The entry in a JSON value. Its signature is not checked. -/
def Entry.ofValue (v : Value) : Except RegistryError Entry := do
  if !v.isObject then throw (.malformedResponse .notAnObject)
  checkType (v.field? "type")
  let text ← textField v "data"
  let data ← (Hex.decode text).mapError fun _ => .malformedResponse .dataNotHex
  let some revision := v.field? "revision" >>= Value.asNat?
    | throw (.malformedResponse .revisionNotNumber)
  let text ← textField v "signature"
  let some signature := signatureOfHex? text | throw (.malformedResponse .signatureInvalid)
  return ⟨data, revision.toUInt64, signature⟩

/-- The entry in the body of a portal's answer. Its signature is not checked. -/
def Entry.ofResponse (body : ByteArray) : Except RegistryError Entry :=
  match Value.ofBytes? body with
  | none => .error (.malformedResponse .invalidJson)
  | some v => Entry.ofValue v

/-- The request to write an entry as a JSON value. -/
def Entry.writeValue (e : Entry) (owner : PublicKey) (dataKey : ByteVector 32) : Value :=
  .object [
    ("publickey", .object [
      ("algorithm", .string algorithm),
      ("key", .ofBytes owner.bytes.toByteArray)]),
    ("datakey", .string dataKey.toHex),
    ("revision", .nat e.revision.toNat),
    ("data", .ofBytes e.data),
    ("signature", .ofBytes e.signature.bytes)]

/-- The request to write an entry. -/
def Entry.writeRequest (e : Entry) (owner : PublicKey) (dataKey : ByteVector 32) : String :=
  (e.writeValue owner dataKey).compact

end Trustless.Registry
