import Trustless.Merkle.RangeProof
import Trustless.Resolution.Chain
import Trustless.Skyfile.Layout
import Trustless.Skyfile.Metadata

/-!
# Checking what a portal serves

A portal answers the request for a link with the bytes the link covers, followed by a range proof. A
link to an entry comes with a resolver proof in addition. The answer is checked in four steps:

1. the link is resolved to one to data,
2. the body is split where the link says that its data ends,
3. the proof is checked against the root in the link,
4. the file is cut out of the data.

What fails in the first three is counted as the portal's fault, and another portal may do better. There
is one exception: a hop that says it is of the type with the owner's key ends the download, although
nothing signs what a hop says its type is, and a portal that has the file would serve other hops. What
fails in the last step is the content's: every honest portal will serve the same bytes.

* `Download.verify`: the four steps.
* `DownloadError.portalFault`: whose fault a failure is.
-/

namespace Trustless

open Json (Value)

/-- Why an answer to a download is not accepted. -/
inductive DownloadError
  | invalidLink (source : LinkError)
  | missingProof
  | resolver (source : ResolverError)
  | bodyTooShort (expected got : Nat)
  | merkle (source : MerkleError)
  | layout (source : SkyfileError)
  | contentInconsistent (needed available : Nat)
deriving DecidableEq, Repr

namespace DownloadError

/-- The wording of a download error. What is wrong with a range proof is not told. -/
def message : DownloadError → String
  | invalidLink source => s!"requested link is invalid: {source.message}"
  | missingProof => "portal did not send a resolver proof for a V2 link"
  | resolver source => s!"portal sent an invalid resolver proof: {source.message}"
  | bodyTooShort expected got => s!"response body is {got} bytes, link needs at least {expected}"
  | merkle _ => "portal data does not match the link"
  | layout source => s!"skyfile layout is unreadable: {source.message}"
  | contentInconsistent needed available =>
    s!"skyfile claims {needed} bytes of content but only {available} were verified"

/-- Whether a failure is counted as the portal's fault, so that another portal is asked. A hop of a
type that is not supported is not, whoever made it up. -/
def portalFault : DownloadError → Bool
  | missingProof | bodyTooShort .. | merkle _ => true
  | resolver (.unsupportedEntryType ..) => false
  | resolver _ => true
  | invalidLink _ | layout _ | contentInconsistent .. => false

end DownloadError

/-- A file that passed all checks. -/
structure Download where
  /-- The link to data that the file was checked against. -/
  link : Link
  layout : Skyfile.Layout
  metadata : ByteArray
  file : ByteArray
deriving DecidableEq

namespace Download

/-- The metadata as JSON, if it is JSON. -/
def metadataValue? (d : Download) : Option Value :=
  Value.ofBytes? d.metadata

/-- The name of the file, if the metadata tells it. -/
def filename? (d : Download) : Option String :=
  d.metadataValue? >>= Value.field? "Filename" >>= Value.asString?

/-- The link to data behind the requested one, with what it points at. -/
def locate (requested : Link) (proof : Option String) : Except DownloadError (Link × Target) := do
  match ← requested.target.mapError .invalidLink with
  | .data offset size => return (requested, .data offset size)
  | .entry =>
    let some text := proof | throw .missingProof
    let link ← (Resolution.resolve requested text).mapError .resolver
    let target ← link.target.mapError fun e => .resolver (.invalidLink 0 e)
    return (link, target)

/-- Cuts the file out of checked data: layout, fanout, metadata and file stand in a row. -/
def cut (link : Link) (data : ByteArray) : Except DownloadError Download := do
  let layout ← (Skyfile.Layout.decode data).mapError .layout
  let needed := layout.contentEnd
  if needed ≤ data.size then
    let start := Skyfile.layoutSize + layout.fanoutSize.toNat
    return {
      link := link
      layout := layout
      metadata := data.extract start (start + layout.metadataSize.toNat)
      file := data.extract layout.fileStart needed }
  else throw (.contentInconsistent (min needed (UInt64.size - 1)) data.size)

/-- Checks the answer to the request for a link. -/
def verify (body : ByteArray) (requested : Link) (proof : Option String) :
    Except DownloadError Download := do
  let (link, target) ← locate requested proof
  let size := target.size
  if body.size < size then throw (.bodyTooShort size body.size)
  let data := body.extract 0 size
  let rest := body.extract size body.size
  (RangeProof.verify .blake2b link.root target.offset size data rest).mapError .merkle
  cut link data

end Download

end Trustless
