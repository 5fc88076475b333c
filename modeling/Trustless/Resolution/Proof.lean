import Trustless.Registry.Exchange
import Trustless.Resolution.Error

/-!
# Hops of a resolver proof

A portal that serves a link to an entry sends along the entries it followed: a JSON array with one
object for every hop. Reading checks the form of a hop only.

* `Proof.ofValue`, `Proof.parseAll`: hops from JSON.
* `Proof.toValue`, `Proof.encodeAll`: hops to JSON.
-/

namespace Trustless.Resolution

open Json (Value)

/-- An entry together with the keys it is said to stand under. -/
structure Proof where
  entry : Registry.Entry
  dataKey : ByteVector 32
  publicKey : PublicKey
deriving DecidableEq

namespace Proof

/-- A hop to a link, signed by its owner. -/
def sign (keypair : Keypair) (dataKey : ByteVector 32) (target : Link) (revision : UInt64) :
    Except RegistryError Proof :=
  (Registry.Entry.sign keypair dataKey target.bytes.toByteArray revision).map fun entry =>
    ⟨entry, dataKey, keypair.publicKey⟩

/-- The text of a field of a hop. -/
def textField (v : Value) (hop : Nat) (field : String) : Except ResolverError String :=
  match v.field? field >>= Value.asString? with
  | some s => .ok s
  | none => .error (.malformedProof hop (.notAString field))

/-- The key written in a base64 text, if it is a point of the curve. -/
def keyOfText? (s : String) : Option PublicKey := do
  let b ← (Base64.decode s).toOption
  (PublicKey.parse b).toOption

/-- The public key of a hop. -/
def keyOfValue (v : Value) : Except ProofFault PublicKey := do
  let some key := (v.field? "publickey").filter Value.isObject | throw .publicKeyNotObject
  let some algorithm := key.field? "algorithm" >>= Value.asString? | throw .algorithmNotString
  if algorithm ≠ Registry.algorithm then throw (.unknownAlgorithm algorithm)
  let some text := key.field? "key" >>= Value.asString? | throw .keyNotString
  let some publicKey := keyOfText? text | throw .keyInvalid
  return publicKey

/-- The hop in a JSON value. -/
def ofValue (v : Value) (hop : Nat) : Except ResolverError Proof := do
  if !v.isObject then throw (.malformedProof hop .notAnObject)
  let some type := v.field? "type" >>= Value.asNat? | throw (.malformedProof hop .typeNotNumber)
  if type = Registry.typeWithKey then throw (.unsupportedEntryType hop type)
  if type ≠ Registry.plainType then throw (.malformedProof hop (.unrecognizedType type))
  let some revision := v.field? "revision" >>= Value.asNat?
    | throw (.malformedProof hop .revisionNotNumber)
  let publicKey ← (keyOfValue v).mapError (.malformedProof hop)
  let data ← (Hex.decode (← textField v hop "data")).mapError fun _ =>
    .malformedProof hop .dataNotHex
  let dataKey ← (Hex.decodeVector 32 (← textField v hop "datakey")).mapError fun _ =>
    .malformedProof hop .dataKeyInvalid
  let text ← textField v hop "signature"
  let some signature := Registry.signatureOfHex? text
    | throw (.malformedProof hop .signatureInvalid)
  return ⟨⟨data, revision.toUInt64, signature⟩, dataKey, publicKey⟩

/-- The JSON value of a hop. -/
def toValue (p : Proof) : Value :=
  .object [
    ("data", .string (Hex.encode p.entry.data)),
    ("datakey", .string p.dataKey.toHex),
    ("publickey", .object [
      ("algorithm", .string Registry.algorithm),
      ("key", .string (Base64.encode p.publicKey.bytes.toByteArray))]),
    ("revision", .nat p.entry.revision.toNat),
    ("signature", .string p.entry.signature.toHex),
    ("type", .nat Registry.plainType)]

/-- The hops in JSON values, numbered from `hop` on. -/
def ofValues (hop : Nat) : List Value → Except ResolverError (List Proof)
  | [] => .ok []
  | v :: vs => do
    let p ← ofValue v hop
    let ps ← ofValues (hop + 1) vs
    return p :: ps

/-- The hops in a JSON text. -/
def parseAll (text : String) : Except ResolverError (List Proof) :=
  match Value.parse? text with
  | none => .error .invalidJson
  | some (.array []) => .error .emptyChain
  | some (.array items) => ofValues 0 items
  | some _ => .error .notAnArray

/-- Hops as a JSON text. -/
def encodeAll (ps : List Proof) : String :=
  (Value.array (ps.map toValue)).compact

end Proof

end Trustless.Resolution
