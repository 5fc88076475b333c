import Trustless.Download
import Trustless.Guarded.Merkle

/-!
# Checking a download in words

The check of what a portal serves, with every step that counts taken in words and every cut kept
within its bytes. The sizes in a layout are three numbers that whoever made the sector has chosen.

* `Guarded.decode`: what the bits of a link say.
* `Guarded.locate`: the link that is checked against.
* `Guarded.encodeLayout`, `Guarded.decodeLayout`: the fields of a layout at their places.
* `Guarded.cut`: the parts of checked data.
* `Guarded.verify`: the whole check.
-/

namespace Trustless.Guarded

open Skyfile (Layout layoutSize)
open Bytes (ofU64)
open Resolution (Proof)

/-! ## Links -/

/-- The unit of lengths in a mode, and the length above which they lie. -/
def lengthUnits (mode : Nat) : Guarded LinkError (Nat × Nat) := do
  if mode = 0 then return (4096, 0)
  else
    let low ← minus mode 1
    let unit ← shiftLeft 4096 low
    let base ← shiftLeft 32768 low
    return (unit, base)

/-- What the bits of a link to data say, without the version. -/
def decodeData (bits : Nat) : Guarded LinkError Target := do
  let mode := Target.trailingOnes (Target.maxMode + 1) bits
  if mode > Target.maxMode then throw .invalidMode
  let amount ← shortWord (mode + 1)
  let rest ← shiftRight bits amount
  let offsetUnit ← shiftLeft 4096 mode
  let (unit, base) ← lengthUnits mode
  let index ← word (rest % 8 + 1)
  let above ← word (index * unit)
  let size ← word (above + base)
  let offset ← word (rest / 8 * offsetUnit)
  let last ← word (offset + size)
  if last > Sector.size then throw (.rangeOutOfBounds offset size)
  return .data offset size

/-- What the sixteen bits of a link say. -/
def decode (raw : Nat) : Guarded LinkError Target := do
  let version ← below UInt16.size (raw % 4 + 1)
  if version = 1 then decodeData (raw / 4)
  else if raw = 1 then return .entry
  else throw (.unknownVersion version)

/-! ## Hops -/

/-- The link in a hop, which must point at something. -/
def nextLink (hop : Nat) (p : Proof) : Guarded ResolverError Link :=
  match Link.ofBytes p.entry.data with
  | .error e => throw (.invalidLink hop e)
  | .ok next => do
    let _ ← (decode next.bits).adapt (.invalidLink hop)
    return next

/-- The link that a hop leads to from the current one. -/
def followHop (hop : Nat) (current : Link) (p : Proof) : Guarded ResolverError Link := do
  let next ← nextLink hop p
  if Registry.Entry.name p.publicKey p.dataKey ≠ current.root then throw (.entryIdMismatch hop)
  if !p.entry.verify p.publicKey p.dataKey then throw (.badSignature hop)
  return next

/-- The link that hops lead to, numbered from `hop` on; it must be one to data. -/
def follow (hop : Nat) (current : Link) : List Proof → Guarded ResolverError Link
  | [] => do
    match ← (decode current.bits).adapt fun _ => .finalLinkNotImmutable with
    | .data .. => return current
    | .entry => throw .finalLinkNotImmutable
  | p :: ps => do
    let next ← followHop hop current p
    follow (hop + 1) next ps

/-- The link to data that the hops in a JSON text lead to. -/
def resolve (start : Link) (text : String) : Guarded ResolverError Link := do
  let ps ← of (Proof.parseAll text)
  if ps.isEmpty then throw .emptyChain
  follow 0 start ps

/-- The link that is checked against: the requested one, or what the resolver proof leads to. -/
def locate (requested : Link) (proof : Option String) : Guarded DownloadError (Link × Target) := do
  match ← (decode requested.bits).adapt .invalidLink with
  | .data offset size => return (requested, .data offset size)
  | .entry =>
    let some text := proof | throw .missingProof
    let link ← (resolve requested text).adapt .resolver
    let target ← (decode link.bits).adapt fun e => .resolver (.invalidLink 0 e)
    return (link, target)

/-! ## Layouts

The 99 bytes of a layout are zeros at first, and every field is copied to where it belongs. A field
that were not as long as its place, or whose place were not within the 99 bytes, would stop it. -/

/-- The bytes of a layout. -/
def encodeLayout (l : Layout) : Guarded SkyfileError ByteArray := do
  let out := Bytes.zeros layoutSize
  let out ← copy out 0 1 (Layout.byte l.version).toByteArray
  let out ← copy out 1 9 (ofU64 l.fileSize).toByteArray
  let out ← copy out 9 17 (ofU64 l.metadataSize).toByteArray
  let out ← copy out 17 25 (ofU64 l.fanoutSize).toByteArray
  let out ← copy out 25 26 (Layout.byte l.dataPieces).toByteArray
  let out ← copy out 26 27 (Layout.byte l.parityPieces).toByteArray
  let out ← copy out 27 35 l.cipherType.toByteArray
  copy out 35 layoutSize l.keyData.toByteArray

/-- The layout in the first 99 bytes. -/
def decodeLayout (b : ByteArray) : Guarded SkyfileError Layout := do
  if b.size < layoutSize then throw (.layoutTooShort b.size)
  let cipherType ← field b 27 8
  let keyData ← field b 35 64
  let version ← byte b 0
  let fileSize ← wordAt b 1
  let metadataSize ← wordAt b 9
  let fanoutSize ← wordAt b 17
  let dataPieces ← byte b 25
  let parityPieces ← byte b 26
  return ⟨version, fileSize, metadataSize, fanoutSize, dataPieces, parityPieces, cipherType, keyData⟩

/-! ## Checked data -/

/-- Where the file starts, if that is a word. -/
def fileStart (l : Layout) : Option Nat := do
  let metadataEnd ← checkedAdd layoutSize l.metadataSize.toNat
  checkedAdd metadataEnd l.fanoutSize.toNat

/-- Where the file ends, if that is a word. -/
def fileEnd (l : Layout) : Option Nat := do
  let start ← fileStart l
  checkedAdd start l.fileSize.toNat

/-- The metadata and the file, given where the file starts and ends. -/
def cutParts (link : Link) (layout : Layout) (data : ByteArray) (start last : Nat) :
    Guarded DownloadError Download := do
  let metadataStart ← word (layoutSize + layout.fanoutSize.toNat)
  let metadataEnd ← word (metadataStart + layout.metadataSize.toNat)
  let metadata ← slice data metadataStart metadataEnd
  let file ← slice data start last
  return ⟨link, layout, metadata, file⟩

/-- Cuts the file out of checked data. -/
def cut (link : Link) (data : ByteArray) : Guarded DownloadError Download := do
  let layout ← (decodeLayout data).adapt .layout
  let needed := (fileEnd layout).getD (UInt64.size - 1)
  match fileStart layout, fileEnd layout with
  | some start, some last =>
    if last ≤ data.size then cutParts link layout data start last
    else throw (.contentInconsistent needed data.size)
  | _, _ => throw (.contentInconsistent needed data.size)

/-- Checks the answer to the request for a link. -/
def verify (body : ByteArray) (requested : Link) (proof : Option String) :
    Guarded DownloadError Download := do
  let (link, target) ← locate requested proof
  let size := target.size
  if body.size < size then throw (.bodyTooShort size body.size)
  let data ← slice body 0 size
  let rest ← slice body size body.size
  (verifyRange .blake2b link.root target.offset size data rest).adapt .merkle
  cut link data

end Trustless.Guarded
