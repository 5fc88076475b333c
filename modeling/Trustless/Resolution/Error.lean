import Trustless.Link.Bitfield

/-!
# What can be wrong with a resolver proof

The causes for which a portal's proof is not accepted, with the hop they were found at, and the
wording of each.
-/

namespace Trustless

/-- Why a hop of a proof is malformed. -/
inductive ProofFault
  | notAnObject
  | typeNotNumber
  | unrecognizedType (type : Nat)
  | revisionNotNumber
  | publicKeyNotObject
  | algorithmNotString
  | unknownAlgorithm (name : String)
  | keyNotString
  | keyInvalid
  | notAString (field : String)
  | dataNotHex
  | dataKeyInvalid
  | signatureInvalid
deriving DecidableEq, Repr

/-- The wording of a fault in a hop. -/
def ProofFault.message : ProofFault → String
  | notAnObject => "proof is not an object"
  | typeNotNumber => "type must be an unsigned integer"
  | unrecognizedType type => s!"unrecognized entry type {type}"
  | revisionNotNumber => "revision must be an unsigned integer"
  | publicKeyNotObject => "publickey must be an object"
  | algorithmNotString => "publickey.algorithm must be a string"
  | unknownAlgorithm name => s!"unrecognized public key algorithm {name}"
  | keyNotString => "publickey.key must be a string"
  | keyInvalid => "publickey.key is not a valid ed25519 key"
  | notAString field => s!"{field} must be a string"
  | dataNotHex => "data is invalid hex"
  | dataKeyInvalid => "datakey is not a 32-byte hex string"
  | signatureInvalid => "signature is not a 64-byte hex string"

/-- Why a resolver proof was refused. -/
inductive ResolverError
  | invalidJson
  | notAnArray
  | emptyChain
  | malformedProof (hop : Nat) (fault : ProofFault)
  | unsupportedEntryType (hop type : Nat)
  | invalidLink (hop : Nat) (source : LinkError)
  | entryIdMismatch (hop : Nat)
  | badSignature (hop : Nat)
  | finalLinkNotImmutable
deriving DecidableEq, Repr

/-- The wording of a resolver error. -/
def ResolverError.message : ResolverError → String
  | invalidJson => "resolver proof is not valid json: malformed text"
  | notAnArray => "resolver proof is not an array"
  | emptyChain => "resolver proof array is empty"
  | malformedProof hop fault => s!"resolver proof {hop} is malformed: {fault.message}"
  | unsupportedEntryType hop type => s!"resolver proof {hop} has unsupported entry type {type}"
  | invalidLink hop source =>
    s!"resolver proof {hop} does not contain a valid link: {source.message}"
  | entryIdMismatch hop => s!"resolver proof {hop} does not match the link it resolves"
  | badSignature hop => s!"resolver proof {hop} has an invalid signature"
  | finalLinkNotImmutable => "resolver chain does not end on an immutable link"

end Trustless
