import Trustless.Download
import Trustless.Portal.Message
import Trustless.Registry.Exchange

/-!
# Which answers are accepted

One check for each kind of request. A check rejects an answer when another portal might do better, with
the reason. A problem that is counted as the content's is no reason to reject: the answer is accepted,
and the problem is what the check makes of it. So is an entry of a type that is not supported, although
any portal can say this of any entry.
-/

namespace Trustless.Portal

open Json (Value)

/-- The header with the resolver proof. -/
def proofHeader : String := "skynet-proof"

/-- Rejects every status but one. -/
def expectStatus (status : Nat) (r : Response) : Except String Unit :=
  if r.status = status then .ok () else .error s!"expected status {status}, got {r.status}"

/-- Accepts what can be verified against a link, and what is wrong in itself. -/
def acceptDownload (link : Link) (r : Response) : Except String (Except DownloadError Download) := do
  expectStatus 200 r
  match Download.verify r.body link (r.header? proofHeader) with
  | .ok download => return .ok download
  | .error e => if e.portalFault then throw e.message else return .error e

/-- Accepts an entry with the owner's signature, and entries of a type that is not supported. -/
def acceptEntry (owner : PublicKey) (dataKey : ByteVector 32) (r : Response) :
    Except String (Except RegistryError Registry.Entry) :=
  match Registry.Entry.ofResponse r.body with
  | .ok entry =>
    if entry.verify owner dataKey then .ok (.ok entry)
    else .error "registry entry has an invalid signature"
  | .error (.unsupportedEntryType type) => .ok (.error (.unsupportedEntryType type))
  | .error e => .error e.message

/-- Accepts the report that an entry is written. -/
def acceptWrite (r : Response) : Except String Unit :=
  expectStatus 204 r

/-- Accepts the report of a link that is the expected one. -/
def acceptUpload (expected : Link) (r : Response) : Except String Link := do
  let some body := Value.ofBytes? r.body | throw "invalid json: malformed text"
  let some returned := body.field? "skylink" >>= Value.asString?
    | throw "response has no skylink"
  if returned = expected.toText then return expected
  else throw s!"portal returned skylink {returned}, expected {expected.toText}"

end Trustless.Portal
