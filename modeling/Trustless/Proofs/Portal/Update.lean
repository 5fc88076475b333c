import Mathlib.Algebra.Group.Nat.Defs
import Trustless.Proofs.Portal.Lookup

/-!
# Updating an entry

An update reads an entry and writes at the revision after it. Whether anything is written is settled
by the read alone: after a read that failed, and over an entry at the last revision, nothing is.

* `Follows`, `Carries`: the next revision, and the revision in a request.
* `Client.records_writeEntry`: a write is one request, or none if the data is too large.
* `Client.UpdateOutcome`, `Client.updateEntry_outcome`: what an update comes to.
-/

namespace Trustless.Portal

open Json (Value)
open Registry (Entry maxDataSize)

/-- The revision at which an entry is updated: the one after its own, and the first one if there is
none. -/
def Follows (current : Option Entry) (revision : UInt64) : Prop :=
  revision.toNat = current.elim 0 fun e => e.revision.toNat + 1

/-- A request that is sent with a JSON object in which the revision stands. -/
def Carries (request : Request) (revision : UInt64) : Prop :=
  ∃ body v, request.body? = some body ∧ Value.ofBytes? body = some v ∧
    (v.field? "revision" >>= Value.asNat?) = some revision.toNat

/-- A request to write an entry carries its revision. -/
theorem carries_writeRequest (owner : PublicKey) (dataKey : ByteVector 32) (e : Entry) :
    Carries (Client.writeRequest owner dataKey e) e.revision := by
  obtain ⟨v, hread, hrevision⟩ := e.revision_writeRequest owner dataKey
  exact ⟨_, v, rfl, hread, hrevision⟩

namespace Client

variable {σ : Type} {c : Client σ} {keypair : Keypair} {dataKey : ByteVector 32} {data : ByteArray}
  {revision : UInt64} {s s' : σ} {entry : Entry} {current : Option Entry} {e : PortalError}

/-! ## The next revision -/

/-- Below the last revision, counting does not wrap around. -/
theorem toNat_succ {revision : UInt64} (h : revision.toNat + 1 < 2 ^ 64) :
    (revision + 1).toNat = revision.toNat + 1 := by
  rw [UInt64.toNat_add]
  exact Nat.mod_eq_of_lt h

/-- There is a next revision, unless the entry is at the last one. -/
theorem last_or_follows (current : Option Entry) :
    (∃ entry, current = some entry ∧ entry.revision.toNat = 2 ^ 64 - 1) ∨
      ∃ revision, Follows current revision := by
  cases current with
  | none => exact .inr ⟨0, rfl⟩
  | some entry =>
    rcases Nat.lt_or_ge (entry.revision.toNat + 1) (2 ^ 64) with hlt | hge
    · exact .inr ⟨entry.revision + 1, toNat_succ hlt⟩
    · have := entry.revision.toNat_lt
      exact .inl ⟨entry, rfl, by omega⟩

theorem nextRevision_of_follows (h : Follows current revision) :
    nextRevision current = .ok revision := by
  cases current with
  | none =>
    have hfirst : revision = 0 := UInt64.toNat_inj.mp h
    rw [hfirst]
    rfl
  | some entry =>
    have hnext : revision.toNat = entry.revision.toNat + 1 := h
    have hlt : entry.revision.toNat + 1 < 2 ^ 64 := hnext ▸ revision.toNat_lt
    have hrevision : entry.revision + 1 = revision :=
      UInt64.toNat_inj.mp ((toNat_succ hlt).trans hnext.symm)
    rw [← hrevision]
    exact if_pos hlt

/-- There is no revision after the last one. -/
theorem nextRevision_of_last (h : entry.revision.toNat = 2 ^ 64 - 1) :
    nextRevision (some entry) = .error .revisionOverflow := by
  refine if_neg ?_
  rw [h]
  decide

/-! ## Writing -/

theorem writeEntry_of_too_large (h : maxDataSize < data.size) (c : Client σ) (keypair : Keypair)
    (dataKey : ByteVector 32) (revision : UInt64) (s : σ) :
    (c.writeEntry keypair dataKey data revision).run s
      = (.error (.registry (.dataTooLarge data.size)), s) := by
  unfold writeEntry
  rw [Entry.sign_of_too_large h]
  rfl

/-- Once an entry is signed, it is written with one request. -/
theorem writeEntry_of_sign (h : Entry.sign keypair dataKey data revision = .ok entry)
    (c : Client σ) : c.writeEntry keypair dataKey data revision
      = (c.ask (writeRequest keypair.publicKey dataKey entry) acceptWrite >>= fun success =>
          pure ⟨success.portal, entry, success.failures⟩) := by
  unfold writeEntry
  rw [h]
  rfl

/-- **A write is one request for the signed entry**, sent to a front part of the portals, or none if
the data is too large. -/
theorem records_writeEntry (c : Client σ) (keypair : Keypair) (dataKey : ByteVector 32)
    (data : ByteArray) (revision : UInt64) (s : σ) :
    ∃ asked, Session.Records (c.recorded.writeEntry keypair dataKey data revision)
        (c.writeEntry keypair dataKey data revision) s asked ∧
      (maxDataSize < data.size → asked = []) ∧
      (data.size ≤ maxDataSize → ∃ entry, Entry.sign keypair dataKey data revision = .ok entry ∧
        SentToFront (writeRequest keypair.publicKey dataKey entry) c.config.portals asked) := by
  rcases Nat.lt_or_ge maxDataSize data.size with hlarge | hfits
  · refine ⟨[], fun log => ?_, fun _ => rfl, fun hfits => absurd hlarge (Nat.not_lt_of_le hfits)⟩
    rw [writeEntry_of_too_large hlarge, writeEntry_of_too_large hlarge, List.append_nil]
  · have hsign := Entry.sign_of_fits hfits keypair dataKey revision
    obtain ⟨asked, hfront, hask⟩ :=
      c.records_ask (writeRequest keypair.publicKey dataKey _) acceptWrite s
    refine ⟨asked, ?_, fun hlarge => absurd hlarge (Nat.not_lt_of_le hfits),
      fun _ => ⟨_, hsign, hfront⟩⟩
    rw [writeEntry_of_sign hsign, writeEntry_of_sign hsign]
    exact hask.bind_pure

/-! ## Updating -/

theorem updateEntry_of_error (h : (c.readEntry keypair.publicKey dataKey).run s = (.error e, s')) :
    (c.updateEntry keypair dataKey data).run s = (.error e, s') := by
  unfold updateEntry
  rw [Session.run_bind, h]

/-- An entry at the last revision is not written over. -/
theorem updateEntry_of_last
    (h : (c.readEntry keypair.publicKey dataKey).run s = (.ok (some entry), s'))
    (hlast : entry.revision.toNat = 2 ^ 64 - 1) :
    (c.updateEntry keypair dataKey data).run s
      = (.error (.registry .revisionOverflow), s') := by
  unfold updateEntry
  rw [Session.run_bind, h]
  dsimp only
  rw [nextRevision_of_last hlast]
  rfl

/-- Otherwise the data is written at the next revision. -/
theorem updateEntry_of_follows
    (h : (c.readEntry keypair.publicKey dataKey).run s = (.ok current, s'))
    (hnext : Follows current revision) : (c.updateEntry keypair dataKey data).run s
      = (c.writeEntry keypair dataKey data revision).run s' := by
  unfold updateEntry
  rw [Session.run_bind, h]
  dsimp only
  rw [nextRevision_of_follows hnext]
  rfl

/-- What comes of a run if some requests were made before. -/
def goOn {α : Type} (asked : List Asked) (run : α × σ × List Asked) : α × σ × List Asked :=
  (run.1, run.2.1, asked ++ run.2.2)

/-- What an update comes to, by what its read comes to. Both come with the state that is left and the
requests that were made. -/
structure UpdateOutcome (c : Client σ) (keypair : Keypair) (dataKey : ByteVector 32)
    (data : ByteArray) (read : Except PortalError (Option Entry) × σ × List Asked)
    (update : Except PortalError (Served Entry) × σ × List Asked) : Prop where
  /-- The read makes one request, which the first portal gets if there is one. -/
  reads : SentToFront (readRequest keypair.publicKey dataKey) c.config.portals read.2.2
  /-- An update whose read fails does nothing more and fails with the same error. -/
  failed : ∀ e, read.1 = .error e → update = (.error e, read.2)
  /-- An update that finds the last revision does nothing more. -/
  last : ∀ entry, read.1 = .ok (some entry) → entry.revision.toNat = 2 ^ 64 - 1 →
    update = (.error (.registry .revisionOverflow), read.2)
  /-- Any other update goes on exactly as a write at the next revision does. -/
  written : ∀ current revision, read.1 = .ok current → Follows current revision →
    update = goOn read.2.2 ((c.recorded.writeEntry keypair dataKey data revision).run (read.2.1, []))
  /-- All that is asked after the read is one request, with the signed entry at that revision, and the
  first portal gets it if there is one. -/
  posts : ∀ current revision, read.1 = .ok current → Follows current revision →
    data.size ≤ 86 → ∃ entry posted, Entry.sign keypair dataKey data revision = .ok entry ∧
      Carries (writeRequest keypair.publicKey dataKey entry) revision ∧
      SentToFront (writeRequest keypair.publicKey dataKey entry) c.config.portals posted ∧
      update.2.2 = read.2.2 ++ posted
  /-- Data that is too large is never sent. -/
  tooLarge : 86 < data.size → update.2.2 = read.2.2

/-- **What an update comes to**, for every client and whatever its portals answer. -/
theorem updateEntry_outcome (c : Client σ) (keypair : Keypair) (dataKey : ByteVector 32)
    (data : ByteArray) (s : σ) :
    UpdateOutcome c keypair dataKey data
      ((c.recorded.readEntry keypair.publicKey dataKey).run (s, []))
      ((c.recorded.updateEntry keypair dataKey data).run (s, [])) := by
  rcases hread : (c.recorded.readEntry keypair.publicKey dataKey).run (s, []) with
    ⟨result, s', asked⟩
  have hwrites (current : Option Entry) (revision : UInt64) (hcurrent : result = .ok current)
      (hnext : Follows current revision) :
      (c.recorded.updateEntry keypair dataKey data).run (s, [])
        = (c.recorded.writeEntry keypair dataKey data revision).run (s', asked) :=
    updateEntry_of_follows (hcurrent ▸ hread) hnext
  constructor
  case reads =>
    have hasked := c.asked_readEntry keypair.publicKey dataKey s []
    rw [hread] at hasked
    rcases hasked with hall | ⟨j, -, -, -, -, hfront⟩
    · exact hall ▸ sentToFront_all _ _
    · exact hfront ▸ sentToFront_take_succ _ _ j
  case failed =>
    intro e he
    obtain rfl : result = .error e := he
    exact updateEntry_of_error hread
  case last =>
    intro entry hentry hlast
    obtain rfl : result = .ok (some entry) := hentry
    exact updateEntry_of_last hread hlast
  case written =>
    intro current revision hcurrent hnext
    obtain ⟨more, hrecords, -⟩ := c.records_writeEntry keypair dataKey data revision s'
    rw [hwrites current revision hcurrent hnext, hrecords, goOn, hrecords]
    rfl
  case posts =>
    intro current revision hcurrent hnext hfits
    obtain ⟨more, hrecords, -, hposts⟩ := c.records_writeEntry keypair dataKey data revision s'
    obtain ⟨entry, hsign, hfront⟩ := hposts hfits
    refine ⟨entry, more, hsign, ?_, hfront, ?_⟩
    · obtain ⟨-, rfl⟩ := Entry.sign_eq_ok_iff.mp hsign
      exact carries_writeRequest _ _ _
    · rw [hwrites current revision hcurrent hnext, hrecords]
  case tooLarge =>
    intro hlarge
    cases result with
    | error e => rw [updateEntry_of_error hread]
    | ok current =>
      rcases last_or_follows current with ⟨entry, rfl, hlast⟩ | ⟨revision, hnext⟩
      · rw [updateEntry_of_last hread hlast]
      · rw [hwrites current revision rfl hnext, writeEntry_of_too_large hlarge]

end Client

end Trustless.Portal
