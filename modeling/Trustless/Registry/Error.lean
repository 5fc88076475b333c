/-!
# What can go wrong with registry entries

The causes for which keys cannot be derived, an entry cannot be signed or a portal's answer is no
entry, and the wording of each.
-/

namespace Trustless

/-- Why a portal's answer to a read is no entry. -/
inductive EntryFault
  | invalidJson
  | notAnObject
  | unrecognizedType (text : String)
  | missing (field : String)
  | notAString (field : String)
  | dataNotHex
  | revisionNotNumber
  | signatureInvalid
deriving DecidableEq, Repr

/-- The wording of a fault in an answer. -/
def EntryFault.message : EntryFault → String
  | invalidJson => "invalid json: malformed text"
  | notAnObject => "response is not an object"
  | unrecognizedType text => s!"unrecognized entry type {text}"
  | missing field => s!"missing {field} field"
  | notAString field => s!"{field} field is not a string"
  | dataNotHex => "data is invalid hex"
  | revisionNotNumber => "revision is not a u64"
  | signatureInvalid => "signature is invalid"

/-- Why a registry operation failed. -/
inductive RegistryError
  | seedLength (size : Nat)
  | keypairTagTooLong (size : Nat)
  | dataTooLarge (size : Nat)
  | unsupportedEntryType (type : Nat)
  | malformedResponse (fault : EntryFault)
  | revisionOverflow
deriving DecidableEq, Repr

/-- The wording of a registry error. -/
def RegistryError.message : RegistryError → String
  | seedLength size => s!"seed has the wrong length: expected 16 bytes, got {size}"
  | keypairTagTooLong size => s!"keypair tag is {size} bytes, must be at most 255"
  | dataTooLarge size => s!"registry data is {size} bytes, must be at most 86"
  | unsupportedEntryType type => s!"registry entry type {type} is not supported"
  | malformedResponse fault => s!"malformed registry response: {fault.message}"
  | revisionOverflow => "revision number is already at its maximum"

end Trustless
