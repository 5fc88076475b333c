/-!
# What can be wrong with Merkle data

The causes for which a root cannot be computed or a range proof is refused, and the wording of each.
-/

namespace Trustless

/-- Why a Merkle computation failed. -/
inductive MerkleError
  | emptyStack
  | subtreeTooTall (height top : Nat)
  | leafSize (size : Nat)
  | dataNotAligned (size : Nat)
  | invalidSubtreeRange (start stop : Nat)
  | emptyRange
  | rangeOutOfBounds (offset size : Nat)
  | misaligned (offset size : Nat)
  | dataLength (expected got : Nat)
  | proofLength (expected got : Nat)
  | rootMismatch
deriving DecidableEq, Repr

/-- The wording of a Merkle error. -/
def MerkleError.message : MerkleError → String
  | emptyStack => "cannot compute the Merkle root of an empty data set"
  | subtreeTooTall height top =>
    s!"cannot push a subtree of height {height} onto a stack whose top has height {top}"
  | leafSize size => s!"leaves must be exactly 64 bytes, got {size}"
  | dataNotAligned size => s!"data length {size} is not a multiple of 64 bytes"
  | invalidSubtreeRange start stop =>
    s!"subtree range end ({stop}) must be strictly larger than start ({start})"
  | emptyRange => "range proof covers no data"
  | rangeOutOfBounds offset size => s!"range [{offset}, +{size}) is outside the sector"
  | misaligned offset size => s!"range [{offset}, +{size}) is not aligned to 64-byte leaves"
  | dataLength expected got =>
    s!"data length does not match range: expected {expected}, got {got}"
  | proofLength expected got =>
    s!"merkle proof has invalid length: expected {expected} bytes, got {got}"
  | rootMismatch => "merkle proof does not match root"

end Trustless
