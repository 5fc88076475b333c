import Trustless.Proofs.Link
import Trustless.Proofs.Portal.Update

/-!
# What is posted to portals

A write and an upload are made up before any portal is asked: the entry is signed, and the sector is
built with its link. What cannot be made up is refused without a request. Otherwise one request is
posted until a portal confirms it, and what is returned is what was made up, whatever the portals
answer.

* `Visit.Confirms`: an answer that confirms what was posted.
* `checksFor_acceptWrite`, `checksFor_acceptUpload`: which answers these are.
* `Client.PostOutcome`, `Client.post_outcome`: what posting comes to, for any check of answers.
* `Client.WriteOutcome`, `Client.UploadOutcome`, `Client.write_upload_outcome`: both operations.
-/

namespace Trustless.Portal

open Json (Value)
open Registry (Entry maxDataSize)
open Skyfile (BaseSector Metadata)

variable {α β σ : Type} {check : Response → Except String α} {f : α → β} {value : β}
  {Good : Response → Prop}

/-! ## Answers that confirm -/

/-- The answer is one that confirms what was posted. -/
def Visit.Confirms (v : Visit) (Good : Response → Prop) : Prop :=
  ∃ r, v.answer = .ok r ∧ Good r

/-- A check takes the answers that confirm, and makes the same of all of them. -/
structure ChecksFor (check : Response → Except String α) (f : α → β) (Good : Response → Prop)
    (value : β) : Prop where
  accepts : ∀ r, Good r ↔ r.isSuccess = true ∧ ∃ output, check r = .ok output
  output : ∀ r output, check r = .ok output → f output = value

/-- An answer confirms exactly if it is accepted. -/
theorem ChecksFor.confirms_iff (h : ChecksFor check f Good value) {v : Visit} :
    v.Confirms Good ↔ ∃ response output, v.Passes check response output := by
  constructor
  · rintro ⟨r, hanswer, hgood⟩
    obtain ⟨hsuccess, output, hcheck⟩ := (h.accepts r).mp hgood
    exact ⟨r, output, Visit.passes_iff.mpr ⟨hanswer, hsuccess, hcheck⟩⟩
  · rintro ⟨r, output, hpasses⟩
    obtain ⟨hanswer, hsuccess, hcheck⟩ := Visit.passes_iff.mp hpasses
    exact ⟨r, hanswer, (h.accepts r).mpr ⟨hsuccess, output, hcheck⟩⟩

theorem ChecksFor.not_confirms (h : ChecksFor check f Good value) {v : Visit}
    (hv : v.Fails check) : ¬ v.Confirms Good := by
  intro hconfirms
  obtain ⟨response, output, hpasses⟩ := h.confirms_iff.mp hconfirms
  obtain ⟨cause, hcause⟩ := hv
  cases hcause.symm.trans hpasses

/-- The body is a JSON object that names a link. -/
def ReportsLink (body : ByteArray) (link : Link) : Prop :=
  ∃ v, Value.ofBytes? body = some v ∧ (v.field? "skylink" >>= Value.asString?) = some link.toText

/-- A write is confirmed exactly with status 204. -/
theorem checksFor_acceptWrite (entry : Entry) :
    ChecksFor acceptWrite (fun _ => entry) (fun r => r.status = 204) entry := by
  refine ⟨fun r => ?_, fun _ _ _ => rfl⟩
  unfold acceptWrite expectStatus
  by_cases hstatus : r.status = 204
  · rw [if_pos hstatus]
    refine ⟨fun _ => ⟨?_, (), rfl⟩, fun _ => hstatus⟩
    rw [Response.isSuccess, hstatus]
    rfl
  · rw [if_neg hstatus]
    exact ⟨fun h => absurd h hstatus, fun ⟨_, _, h⟩ => nomatch h⟩

/-- **An upload is accepted exactly if the answer names the expected link**, which is then
returned. -/
theorem acceptUpload_eq_ok_iff {expected link : Link} {r : Response} :
    acceptUpload expected r = .ok link ↔ ReportsLink r.body expected ∧ link = expected := by
  unfold acceptUpload ReportsLink
  cases hbody : Value.ofBytes? r.body with
  | none => exact ⟨nofun, fun ⟨⟨_, h, _⟩, _⟩ => nomatch h⟩
  | some v =>
    simp only [Option.some.injEq, exists_eq_left']
    cases hfield : v.field? "skylink" >>= Value.asString? with
    | none => exact ⟨nofun, fun h => nomatch h.1⟩
    | some text =>
      show (if text = expected.toText then Except.ok expected else .error _) = _ ↔ _
      rw [Option.some.injEq]
      by_cases htext : text = expected.toText
      · rw [if_pos htext, Except.ok.injEq]
        exact ⟨fun h => ⟨htext, h.symm⟩, fun h => h.2.symm⟩
      · rw [if_neg htext]
        exact ⟨nofun, fun h => absurd h.1 htext⟩

/-- An upload is confirmed exactly by an answer that names the expected link. -/
theorem checksFor_acceptUpload (expected : Link) :
    ChecksFor (acceptUpload expected) id
      (fun r => r.isSuccess = true ∧ ReportsLink r.body expected) expected := by
  refine ⟨fun r => and_congr_right fun _ => ?_, fun r link h => (acceptUpload_eq_ok_iff.mp h).2⟩
  exact ⟨fun h => ⟨expected, acceptUpload_eq_ok_iff.mpr ⟨h, rfl⟩⟩,
    fun ⟨_, h⟩ => (acceptUpload_eq_ok_iff.mp h).1⟩

namespace Client

variable {c : Client σ} {s : σ}

/-! ## Posting -/

/-- What posting one request comes to, by what all portals would answer: its result, and the
requests that were made. -/
structure PostOutcome (c : Client σ) (request : Request) (Good : Response → Prop) (value : β)
    (s : σ) (result : Except PortalError (Served β)) (asked : List Asked) : Prop where
  /-- All that is asked is the one request, sent to a front part of the portals. -/
  sent : SentToFront request c.config.portals asked
  /-- What is returned was known beforehand. -/
  value : ∀ served, result = .ok served → served.value = value
  /-- It is returned exactly if some answer confirms the request. -/
  succeeds : (∃ served, result = .ok served) ↔
    ∃ v ∈ c.transport.visits request c.config.portals s, v.Confirms Good
  /-- The first portal with such an answer is named, the portals before it are reported, and the
  portals after it are not asked. -/
  first : ∀ served, result = .ok served → ∃ j v,
    (c.transport.visits request c.config.portals s)[j]? = some v ∧ v.portal = served.portal ∧
    v.Confirms Good ∧
    (∀ u ∈ (c.transport.visits request c.config.portals s).take j, ¬ u.Confirms Good) ∧
    served.failures.map Failure.portal = c.config.portals.take j ∧
    asked = sentTo request (c.config.portals.take (j + 1))

/-- Posts a request and makes a value of what is accepted. -/
def post (c : Client σ) (request : Request) (check : Response → Except String α) (f : α → β) :
    Session σ (Served β) :=
  c.ask request check >>= fun success => pure ⟨success.portal, f success.output, success.failures⟩

/-- **What posting comes to**, for every client and whatever its portals answer. -/
theorem post_outcome (h : ChecksFor check f Good value) (c : Client σ) (request : Request) (s : σ) :
    PostOutcome c request Good value s ((c.recorded.post request check f).run (s, [])).1
      ((c.recorded.post request check f).run (s, [])).2.2 := by
  have hasked (portals : List String) : (c.recorded.transport.after request portals (s, [])).2
      = sentTo request portals :=
    congrArg Prod.snd (c.transport.after_recorded [] request portals s)
  have hvisits : c.recorded.transport.visits request c.recorded.config.portals (s, [])
      = c.transport.visits request c.config.portals s := c.transport.visits_recorded [] ..
  unfold post
  rw [Session.run_bind]
  rcases c.recorded.ask_cases request check (s, []) with
    ⟨hnil, hrun⟩ | ⟨j, v, response, output, hfirst, hrun⟩ | ⟨-, hfails, hrun⟩
  · have hportals : c.config.portals = [] := hnil
    rw [hrun]
    constructor
    case sent => exact hportals ▸ sentToFront_all request []
    case value => exact nofun
    case succeeds =>
      rw [hportals]
      exact ⟨nofun, fun ⟨_, hv, _⟩ => nomatch hv⟩
    case first => exact nofun
  · rw [hrun]
    have hfront := hfirst.map_portal_failures
    rw [hvisits] at hfirst hfront ⊢
    have hconfirms : v.Confirms Good := h.confirms_iff.mpr ⟨_, _, hfirst.passes⟩
    constructor
    case sent => exact hasked _ ▸ sentToFront_take_succ request _ j
    case value =>
      rintro _ ⟨⟩
      exact h.output _ _ (Visit.passes_iff.mp hfirst.passes).2.2
    case succeeds =>
      exact ⟨fun _ => ⟨v, List.mem_of_getElem? hfirst.here, hconfirms⟩, fun _ => ⟨_, rfl⟩⟩
    case first =>
      rintro _ ⟨⟩
      exact ⟨j, v, hfirst.here, rfl, hconfirms, fun u hu => h.not_confirms (hfirst.before u hu),
        hfront, hasked _⟩
  · rw [hrun]
    rw [hvisits] at hfails
    constructor
    case sent => exact hasked _ ▸ sentToFront_all request _
    case value => exact nofun
    case succeeds =>
      refine ⟨nofun, ?_⟩
      rintro ⟨v, hv, hconfirms⟩
      exact absurd hconfirms (h.not_confirms (hfails v hv))
    case first => exact nofun

/-! ## Writes and uploads -/

/-- A file for which no sector is built is not uploaded. -/
theorem upload_of_error {file : ByteArray} {m : Metadata} {e : SkyfileError}
    (h : BaseSector.build file m = .error e) (c : Client σ) (s : σ) :
    (c.upload file m).run s = (.error (.skyfile e), s) := by
  unfold upload
  rw [h]
  rfl

/-- Once a sector is built, it is uploaded with one request. -/
theorem upload_of_build {file : ByteArray} {m : Metadata} {base : BaseSector}
    (h : BaseSector.build file m = .ok base) (c : Client σ) :
    c.upload file m = c.post (uploadRequest base) (acceptUpload base.link) id := by
  unfold upload
  rw [h]
  rfl

/-- What a write comes to. It comes with the state that is left and the requests that were made. -/
structure WriteOutcome (c : Client σ) (keypair : Keypair) (dataKey : ByteVector 32)
    (data : ByteArray) (revision : UInt64) (s : σ)
    (run : Except PortalError (Served Entry) × σ × List Asked) : Prop where
  /-- Data that is too large is refused, and nothing is sent. -/
  refused : 86 < data.size → run = (.error (.registry (.dataTooLarge data.size)), s, [])
  /-- Other data is signed. Every request has the signed entry as its body, status 204 confirms it,
  and that entry is returned. -/
  posted : data.size ≤ 86 → ∃ entry, Entry.sign keypair dataKey data revision = .ok entry ∧
    PostOutcome c
      (.post Registry.path (Bytes.ofString (entry.writeRequest keypair.publicKey dataKey))
        "application/json")
      (fun r => r.status = 204) entry s run.1 run.2.2

/-- What an upload comes to. It comes with the state that is left and the requests that were
made. -/
structure UploadOutcome (c : Client σ) (file : ByteArray) (m : Metadata) (s : σ)
    (run : Except PortalError (Served Link) × σ × List Asked) : Prop where
  /-- A file for which no sector can be built is refused, and nothing is sent. -/
  refused : ∀ e, BaseSector.build file m = .error e → run = (.error (.skyfile e), s, [])
  /-- Otherwise every request has the sector behind its head as its body, an answer with the text of
  its link confirms it, and that link is returned. -/
  posted : ∀ base, BaseSector.build file m = .ok base →
    BaseSector.linkOf file m = .ok base.link ∧ base.link.toText.length = 46 ∧
    PostOutcome c (.post restorePath base.restoreBody "application/octet-stream")
      (fun r => r.isSuccess = true ∧ ReportsLink r.body base.link) base.link s run.1 run.2.2

/-- **What writes and uploads come to**, for every client and whatever its portals answer. -/
theorem write_upload_outcome (c : Client σ) (keypair : Keypair) (dataKey : ByteVector 32)
    (data : ByteArray) (revision : UInt64) (file : ByteArray) (m : Metadata) (s : σ) :
    WriteOutcome c keypair dataKey data revision s
        ((c.recorded.writeEntry keypair dataKey data revision).run (s, [])) ∧
      UploadOutcome c file m s ((c.recorded.upload file m).run (s, [])) := by
  constructor
  · constructor
    case refused => exact fun hlarge => writeEntry_of_too_large hlarge ..
    case posted =>
      intro hfits
      have hsign := Entry.sign_of_fits hfits keypair dataKey revision
      refine ⟨_, hsign, ?_⟩
      rw [writeEntry_of_sign hsign]
      exact post_outcome (checksFor_acceptWrite _) c _ s
  · constructor
    case refused => exact fun e herror => upload_of_error herror ..
    case posted =>
      intro base hbuild
      refine ⟨by rw [BaseSector.linkOf, hbuild]; rfl, base.link.length_toText, ?_⟩
      rw [upload_of_build hbuild]
      exact post_outcome (checksFor_acceptUpload base.link) c _ s

end Client

end Trustless.Portal
