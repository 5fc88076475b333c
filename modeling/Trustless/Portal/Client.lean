import Trustless.Portal.Acceptance
import Trustless.Portal.Fetch
import Trustless.Skyfile.BaseSector

/-!
# The client

What a user does with portals: download a file, read and write entries, upload a file. Each operation
makes one request, knows which answers to accept, and walks along the portals. Whatever can be refused
without a portal is refused before any is asked.

* `Client.download`, `Client.readEntry`, `Client.writeEntry`, `Client.updateEntry`, `Client.upload`.
-/

namespace Trustless

/-- Why an operation failed. -/
inductive PortalError
  | noPortals
  /-- No portal gave an acceptable answer. -/
  | exhausted (failures : List Portal.Failure)
  /-- The content is verified but cannot be used. -/
  | download (source : DownloadError)
  | registry (source : RegistryError)
  | skyfile (source : SkyfileError)
  | transport (source : TransportError)
deriving DecidableEq

/-- The wording of a failed operation. -/
def PortalError.message : PortalError → String
  | noPortals => "no portals configured"
  | exhausted failures => s!"all {failures.length} portals failed"
  | download source => s!"download failed: {source.message}"
  | registry source => source.message
  | skyfile source => source.message
  | transport source => source.message

namespace Portal

/-- An operation over a transport with state of type `σ`. -/
abbrev Session (σ : Type) := ExceptT PortalError (StateM σ)

/-- A verified answer with where it came from. -/
structure Served (α : Type) where
  portal : String
  value : α
  /-- The portals that failed before. -/
  failures : List Failure

/-- A client of portals. -/
structure Client (σ : Type) where
  transport : Transport σ
  config : Config

namespace Client

variable {α σ : Type}

/-- A client over HTTP. -/
def http (config : Config) (dial : String → Request → σ → Except TransportError Response × σ) :
    Except PortalError (Client σ) :=
  match Transport.http config dial with
  | .ok transport => .ok ⟨transport, config⟩
  | .error e => .error (.transport e)

/-- Asks the portals until one answers acceptably. -/
def ask (c : Client σ) (request : Request) (check : Response → Except String α) :
    Session σ (Success α) :=
  if c.config.portals.isEmpty then throw .noPortals
  else fun s =>
    match fetch c.transport request check c.config.portals s with
    | (.ok success, s) => (.ok success, s)
    | (.error failures, s) => (.error (.exhausted failures), s)

/-- Takes what a check made of an answer, with a problem in the content as a failure. -/
def settle {ε : Type} (wrap : ε → PortalError) : Except ε α → Session σ α
  | .ok a => pure a
  | .error e => throw (wrap e)

/-- The path at which the data of links is served. -/
def downloadPath : String := "/skynet/trustless/basesector/"

/-- The request for the data of a link. -/
def downloadRequest (link : Link) : Request :=
  .get (downloadPath ++ link.toText)

/-- Downloads the file of a link. -/
def download (c : Client σ) (link : Link) : Session σ (Served Download) := do
  let _ ← settle (fun e => .download (.invalidLink e)) link.target
  let success ← c.ask (downloadRequest link) (acceptDownload link)
  let file ← settle .download success.output
  return ⟨success.portal, file, success.failures⟩

/-- The request for an entry. -/
def readRequest (owner : PublicKey) (dataKey : ByteVector 32) : Request :=
  .get (Registry.readPath owner dataKey)

/-- What a read makes of portals that all failed: there is no entry if enough of them did not find
one. -/
def missing (c : Client σ) (failures : List Failure) : Bool :=
  c.config.effectiveQuorum ≤ Failure.countStatus 404 failures

/-- Reads an entry. There is none only on enough reports of that, and an answer that holds an entry with
the owner's signature counts more than any number of them. -/
def readEntry (c : Client σ) (owner : PublicKey) (dataKey : ByteVector 32) :
    Session σ (Option Registry.Entry) := fun s =>
  match (c.ask (readRequest owner dataKey) (acceptEntry owner dataKey)).run s with
  | (.ok success, s) => (settle PortalError.registry (success.output.map some)).run s
  | (.error (.exhausted failures), s) =>
    if c.missing failures then (.ok none, s) else (.error (.exhausted failures), s)
  | (.error e, s) => (.error e, s)

/-- The request to write an entry. -/
def writeRequest (owner : PublicKey) (dataKey : ByteVector 32) (entry : Registry.Entry) : Request :=
  .post Registry.path (Bytes.ofString (entry.writeRequest owner dataKey)) "application/json"

/-- Signs data at a revision and writes it. -/
def writeEntry (c : Client σ) (keypair : Keypair) (dataKey : ByteVector 32) (data : ByteArray)
    (revision : UInt64) : Session σ (Served Registry.Entry) := do
  let entry ← settle .registry (Registry.Entry.sign keypair dataKey data revision)
  let success ← c.ask (writeRequest keypair.publicKey dataKey entry) acceptWrite
  return ⟨success.portal, entry, success.failures⟩

/-- The revision after an entry, which is the first one if there is none. -/
def nextRevision : Option Registry.Entry → Except RegistryError UInt64
  | none => .ok 0
  | some current =>
    if current.revision.toNat + 1 < UInt64.size then .ok (current.revision + 1)
    else .error .revisionOverflow

/-- Writes data at the revision after the one that portals have. -/
def updateEntry (c : Client σ) (keypair : Keypair) (dataKey : ByteVector 32) (data : ByteArray) :
    Session σ (Served Registry.Entry) := do
  let current ← c.readEntry keypair.publicKey dataKey
  let revision ← settle .registry (nextRevision current)
  c.writeEntry keypair dataKey data revision

/-- The path at which sectors are restored. -/
def restorePath : String := "/skynet/restore"

/-- The request to restore a sector. -/
def uploadRequest (base : Skyfile.BaseSector) : Request :=
  .post restorePath base.restoreBody "application/octet-stream"

/-- Uploads a small file. Its link is known beforehand, and a portal that reports another one is
passed over. -/
def upload (c : Client σ) (file : ByteArray) (metadata : Skyfile.Metadata) :
    Session σ (Served Link) := do
  let base ← settle .skyfile (Skyfile.BaseSector.build file metadata)
  let success ← c.ask (uploadRequest base) (acceptUpload base.link)
  return ⟨success.portal, success.output, success.failures⟩

end Client

end Portal

end Trustless
