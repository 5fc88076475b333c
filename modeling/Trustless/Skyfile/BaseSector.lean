import Trustless.Link.Basic
import Trustless.Merkle.Forest
import Trustless.Skyfile.Layout
import Trustless.Skyfile.Metadata

/-!
# The sector of a small file

A small file lives in one sector: layout, metadata, file, and zeros up to the end. Since the sector
is built here, its link is known before any portal sees it.

* `BaseSector.build`: the sector of a file, if everything fits.
* `BaseSector.restoreBody`: the request that brings it to a portal.
-/

namespace Trustless.Skyfile

/-- A sector with its link. -/
structure BaseSector where
  sector : ByteArray
  /-- The bytes of layout, metadata and file. -/
  usedSize : Nat
  link : Link
deriving DecidableEq

namespace BaseSector

/-- Layout, metadata and file in a row. -/
def content (file metadata : ByteArray) : ByteArray :=
  (Layout.plaintext file.size.toUInt64 metadata.size.toUInt64).encode.toByteArray
    ++ metadata ++ file

/-- The sector of a file. -/
def build (file : ByteArray) (m : Metadata) : Except SkyfileError BaseSector := do
  let metadata := Bytes.ofString (← m.encode)
  let usedSize := layoutSize + metadata.size + file.size
  if usedSize > Sector.size then throw (.tooLarge usedSize)
  let sector := Bytes.pad (content file metadata) 0 (Sector.size - usedSize)
  let root ← (Hasher.blake2b.merkleRoot sector).mapError .merkle
  let link ← (Link.toData usedSize root).mapError .link
  return ⟨sector, usedSize, link⟩

/-- The link of a file, which a portal has to confirm. -/
def linkOf (file : ByteArray) (m : Metadata) : Except SkyfileError Link :=
  (build file m).map BaseSector.link

/-- The title of a request that restores a sector. -/
def restoreTitle : String := "Skyfile Backup\n"

/-- The version of requests that restore a sector. -/
def restoreVersion : String := "v1.5.5\n"

/-- The head of a request that restores a sector: title, version and link, each after its length. -/
def restoreHead (link : Link) : ByteArray :=
  Bytes.lengthPrefixed (Bytes.ofString restoreTitle)
    ++ Bytes.lengthPrefixed (Bytes.ofString restoreVersion)
    ++ Bytes.lengthPrefixed (Bytes.ofString link.toText)

/-- The request that restores a sector. -/
def restoreBody (b : BaseSector) : ByteArray :=
  restoreHead b.link ++ b.sector

/-- The sector for a log. -/
def summary (b : BaseSector) : String :=
  "BaseSector \x7b used_size: " ++ toString b.usedSize ++ ", link: " ++ b.link.summary ++ " \x7d"

end BaseSector

end Trustless.Skyfile
