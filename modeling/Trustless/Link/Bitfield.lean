import Trustless.Bytes.LittleEndian
import Trustless.Merkle.Hasher

/-!
# What a link points at

The first two bytes of a link are a number of sixteen bits. Its lowest two bits tell the version of
the link. In a link to data they are followed by a run of up to seven ones, the mode, and a zero,
then by three bits for the length of the data and by the bits for its offset. The mode doubles the
unit of both, so that two bytes can name 4 KiB anywhere as well as a whole sector.

* `Target.decode`: what sixteen bits say, or why they say nothing.
* `Target.encode`: the bits for data at the start of a sector, with the shortest length that covers
  it.
-/

namespace Trustless

/-- Why bytes, text or a size make no link. -/
inductive LinkError
  | wrongLength (size : Nat)
  | unknownVersion (version : Nat)
  | invalidMode
  | rangeOutOfBounds (offset size : Nat)
  | dataTooLarge (size : Nat)
  | invalidText
deriving DecidableEq, Repr

/-- The wording of a link error. -/
def LinkError.message : LinkError → String
  | wrongLength size => s!"link has incorrect length: expected 34 bytes, got {size}"
  | unknownVersion version => s!"link has unrecognized version {version}"
  | invalidMode => "link has an invalid v1 bitfield mode"
  | rangeOutOfBounds offset size =>
    s!"link range is out of bounds: offset {offset} + fetch size {size} exceeds sector"
  | dataTooLarge size => s!"data size {size} does not fit in a sector"
  | invalidText => "link text is not valid base64"

/-- What a link points at: bytes of a sector that never change, or a registry entry. -/
inductive Target
  | data (offset size : Nat)
  | entry
deriving DecidableEq, Repr

namespace Target

/-- The version of links with this kind of target. -/
def version : Target → Nat
  | data .. => 1
  | entry => 2

/-- Where the data starts in its sector. -/
def offset : Target → Nat
  | data offset _ => offset
  | entry => 0

/-- How many bytes of the sector the link covers. -/
def size : Target → Nat
  | data _ size => size
  | entry => 0

/-- The lowest run of ones of a number, counted up to `tries`. -/
def trailingOnes : (tries n : Nat) → Nat
  | 0, _ => 0
  | tries + 1, n => if n % 2 = 1 then trailingOnes tries (n / 2) + 1 else 0

/-- The unit of offsets in a mode. -/
def offsetUnit (mode : Nat) : Nat :=
  4096 <<< mode

/-- The unit of lengths in a mode. -/
def sizeUnit (mode : Nat) : Nat :=
  4096 <<< (mode - 1)

/-- Eight lengths of a mode lie above this one. -/
def sizeBase (mode : Nat) : Nat :=
  if mode = 0 then 0 else 32768 <<< (mode - 1)

/-- The greatest mode. -/
def maxMode : Nat := 7

/-- What the bits of a link to data say, without the version. -/
def decodeData (bits : Nat) : Except LinkError Target :=
  let mode := trailingOnes (maxMode + 1) bits
  if mode > maxMode then .error .invalidMode
  else
    let rest := bits >>> (mode + 1)
    let size := (rest % 8 + 1) * sizeUnit mode + sizeBase mode
    let offset := rest / 8 * offsetUnit mode
    if offset + size > Sector.size then .error (.rangeOutOfBounds offset size)
    else .ok (data offset size)

/-- What the sixteen bits of a link say. A link to an entry has no bits besides its version. -/
def decode (raw : Nat) : Except LinkError Target :=
  if raw % 4 = 0 then decodeData (raw / 4)
  else if raw = 1 then .ok entry
  else .error (.unknownVersion (raw % 4 + 1))

/-- The least mode whose lengths reach `size`, at most `tries` above `mode`. -/
def modeFor (size : Nat) : (tries mode : Nat) → Nat
  | 0, mode => mode
  | tries + 1, mode => if 32768 <<< mode < size then modeFor size tries (mode + 1) else mode

/-- The sixteen bits of a link to `size` bytes at the start of a sector. -/
def encode (size : Nat) : Except LinkError Nat :=
  if size > Sector.size then .error (.dataTooLarge size)
  else
    let mode := modeFor size maxMode 0
    let index := (size - sizeBase mode - 1) / sizeUnit mode
    .ok (((index <<< (mode + 1)) + ((1 <<< mode) - 1)) * 4)

end Target

end Trustless
