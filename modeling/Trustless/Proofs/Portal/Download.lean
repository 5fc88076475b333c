import Trustless.Proofs.Portal.Fetch
import Trustless.Proofs.Upload

/-!
# Downloading from portals of which one is honest

A portal that serves what a link to data points at decides the download, wherever it stands among
others. Those before it may answer what they like: an answer that ends the walk is authenticated,
and authenticated answers hold the same file.

* `acceptDownload_eq_ok_iff`: an answer is accepted exactly if it is settled.
* `accepted_eq_or_collides`: what is accepted is what an honest portal serves.
* `Client.download_of_honest`: one honest portal is enough.
-/

namespace Trustless.Portal

open Download (Settled inputs)
open Skyfile (BaseSector)

variable {link : Link} {offset size : Nat} {r response : Response} {header : Option String}
  {d : Download} {output : Except DownloadError Download}

/-- **An answer to a download is accepted exactly if it is settled**, with what it was checked to
be. -/
theorem acceptDownload_eq_ok_iff : acceptDownload link r = .ok output ↔
    r.status = 200 ∧ Download.verify r.body link (r.header? proofHeader) = output ∧
      Settled output := by
  unfold acceptDownload expectStatus
  by_cases hstatus : r.status = 200
  · rw [if_pos hstatus]
    cases hverify : Download.verify r.body link (r.header? proofHeader) with
    | ok download =>
      show Except.ok (Except.ok download) = _ ↔ _
      rw [Except.ok.injEq]
      refine ⟨?_, fun h => h.2.1⟩
      rintro rfl
      exact ⟨hstatus, rfl, nofun⟩
    | error e =>
      show (if e.portalFault then Except.error e.message else .ok (Except.error e)) = _ ↔ _
      cases hfault : e.portalFault with
      | true =>
        rw [if_pos rfl]
        refine ⟨nofun, ?_⟩
        rintro ⟨-, rfl, hsettled⟩
        rw [hsettled e rfl] at hfault
        cases hfault
      | false =>
        rw [if_neg Bool.false_ne_true, Except.ok.injEq]
        refine ⟨?_, fun h => h.2.1⟩
        rintro rfl
        refine ⟨hstatus, rfl, ?_⟩
        rintro e' ⟨⟩
        exact hfault
  · rw [if_neg hstatus]
    exact ⟨nofun, fun h => absurd h.1 hstatus⟩

/-- What passes as the file of a link to data is authenticated. -/
theorem authenticated_of_verified (h : link.target = .ok (.data offset size))
    (hhonest : Download.verify response.body link header = .ok d) :
    Download.Authenticated link offset size response.body := by
  refine (Download.settled_iff_authenticated h header).mp ?_
  rw [hhonest]
  exact nofun

/-- **What is accepted is what an honest portal serves**, or what was hashed for the two
collides. -/
theorem accepted_eq_or_collides (h : link.target = .ok (.data offset size))
    (haccepted : acceptDownload link r = .ok output)
    (hhonest : Download.verify response.body link header = .ok d) :
    output = .ok d ∨
      Hasher.blake2b.Collides (inputs offset size r.body) (inputs offset size response.body) := by
  obtain ⟨-, rfl, hsettled⟩ := acceptDownload_eq_ok_iff.mp haccepted
  have ha := (Download.settled_iff_authenticated h _).mp hsettled
  have ha' := authenticated_of_verified h hhonest
  refine (RangeProof.verify_unique ha.2 ha'.2).imp_left fun ⟨hdata, _⟩ => ?_
  rw [← hhonest, Download.verify_eq_cut h ha, Download.verify_eq_cut h ha', hdata]

/-- The answer of an honest portal is accepted, whatever header comes along. -/
theorem acceptDownload_of_verified (h : link.target = .ok (.data offset size))
    (hstatus : response.status = 200)
    (hhonest : Download.verify response.body link header = .ok d) :
    acceptDownload link response = .ok (.ok d) := by
  have ha := authenticated_of_verified h hhonest
  refine acceptDownload_eq_ok_iff.mpr ⟨hstatus, ?_, nofun⟩
  rw [← hhonest, Download.verify_eq_cut h ha, Download.verify_eq_cut h ha]

/-- What a portal serves for a file that fits into the shortest range. -/
theorem exists_verified (file metadata : ByteArray)
    (hfit : Skyfile.layoutSize + metadata.size + file.size ≤ 4096) :
    ∃ (link : Link) (body : ByteArray) (d : Download), link.target = .ok (.data 0 4096) ∧
      d.file = file ∧ ∀ header, Download.verify body link header = .ok d := by
  have hs := BaseSector.size_fill (hfit.trans (by decide : 4096 ≤ Sector.size))
  obtain ⟨link, htarget, hroot⟩ : ∃ link : Link, link.target = .ok (.data 0 4096) ∧
      Hasher.blake2b.merkleRoot (BaseSector.fill file metadata) = .ok link.root := by
    refine ⟨Link.ofBits 0 (RangeProof.sectorRoot .blake2b (BaseSector.fill file metadata)), ?_, ?_⟩
    · rw [Link.target, Link.bits_ofBits (by decide)]
      rfl
    · rw [Link.root_ofBits]
      exact RangeProof.merkleRoot_sector hs
  obtain ⟨proof, -, hsize, ha⟩ := Download.authenticated_answer hs hroot htarget
  obtain ⟨rest, hrest⟩ := BaseSector.fill_extract hfit
  have hverify := Download.verify_eq_cut htarget ha
  rw [ByteArray.extract_append_eq_left hsize.symm, hrest, Download.cut_content link file metadata
    rest (by simp only [UInt64.size]; omega) (by simp only [UInt64.size]; omega)] at hverify
  exact ⟨link, _, _, htarget, rfl, hverify⟩

namespace Client

variable {σ : Type} {c : Client σ} {s : σ} {i j : Nat} {portal : String}

/-- A download returns the file of the first answer that is accepted. -/
theorem download_of_firstAt {v : Visit} (h : link.target = .ok (.data offset size))
    (hfirst : FirstAt (acceptDownload link)
      (c.transport.visits (downloadRequest link) c.config.portals s) j v response (.ok d)) :
    ((c.download link).run s).1 = .ok ⟨v.portal, d, failures (acceptDownload link)
      ((c.transport.visits (downloadRequest link) c.config.portals s).take j)⟩ := by
  unfold download
  rw [h, Session.run_bind]
  show ((_ >>= _ : Session σ (Served Download)).run s).1 = _
  rw [Session.run_bind, ask_of_firstAt hfirst]
  rfl

/-- **One honest portal is enough for a download.** Say the portal at place `i` answers with status
200 and what passes as the file of a link to data. Whatever the others answer, the download returns
that file, from the portal at place `i` or one before it, with a report of every portal before that
one; or else one of the answers before place `i` collides with that answer. -/
theorem download_of_honest (h : link.target = .ok (.data offset size))
    (hanswer : (c.transport.visits (downloadRequest link) c.config.portals s)[i]?
      = some ⟨portal, .ok response⟩)
    (hstatus : response.status = 200)
    (hhonest : Download.verify response.body link header = .ok d) :
    (∃ j ≤ i, ∃ served, ((c.download link).run s).1 = .ok served ∧ served.value = d ∧
      c.config.portals[j]? = some served.portal ∧
      served.failures.map Failure.portal = c.config.portals.take j) ∨
    ∃ j < i, ∃ other answer,
      (c.transport.visits (downloadRequest link) c.config.portals s)[j]?
        = some ⟨other, .ok answer⟩ ∧
      Hasher.blake2b.Collides (inputs offset size answer.body)
        (inputs offset size response.body) := by
  have hpasses : Visit.Passes ⟨portal, .ok response⟩ (acceptDownload link) response (.ok d) :=
    Visit.passes_iff.mpr ⟨rfl, by rw [Response.isSuccess, hstatus]; rfl,
      acceptDownload_of_verified h hstatus hhonest⟩
  obtain ⟨j, hle, v, answer, output, hfirst⟩ := exists_firstAt hanswer hpasses
  obtain ⟨hv, -, haccepted⟩ := Visit.passes_iff.mp hfirst.passes
  -- The first accepted answer may be the honest one itself; then there is nothing to compare.
  have hsame : output = .ok d ∨ j < i ∧
      Hasher.blake2b.Collides (inputs offset size answer.body)
        (inputs offset size response.body) := by
    rcases Nat.eq_or_lt_of_le hle with rfl | hlt
    · cases hfirst.here.symm.trans hanswer
      cases hfirst.passes.symm.trans hpasses
      exact .inl rfl
    · exact (accepted_eq_or_collides h haccepted hhonest).imp_right fun hc => ⟨hlt, hc⟩
  rcases hsame with rfl | ⟨hlt, hcollides⟩
  · exact .inl ⟨j, hle, _, download_of_firstAt h hfirst, rfl,
      Transport.portal_at hfirst.here, hfirst.map_portal_failures⟩
  · exact .inr ⟨j, hlt, v.portal, answer, hv ▸ hfirst.here, hcollides⟩

/-- The first of two portals is down, and the second one is honest. -/
theorem download_of_honest_second :
    ∃ (link : Link) (body : ByteArray) (d : Download), d.file = Bytes.ofString "hi" ∧
      ∃ c : Client Unit, c.config.portals = ["down", "honest"] ∧
      (c.transport.visits (downloadRequest link) c.config.portals ())[1]?
        = some ⟨"honest", .ok (.ofBody 200 body)⟩ ∧
      ((∃ j ≤ 1, ∃ served, ((c.download link).run ()).1 = .ok served ∧ served.value = d ∧
        c.config.portals[j]? = some served.portal ∧
        served.failures.map Failure.portal = c.config.portals.take j) ∨
      ∃ j < 1, ∃ other answer,
        (c.transport.visits (downloadRequest link) c.config.portals ())[j]?
          = some ⟨other, .ok answer⟩ ∧
        Hasher.blake2b.Collides (inputs 0 4096 answer.body) (inputs 0 4096 body)) := by
  obtain ⟨link, body, d, htarget, hfile, hverify⟩ :=
    exists_verified (Bytes.ofString "hi") .empty (by decide)
  let c : Client Unit := ⟨.steady fun portal =>
    if portal = "honest" then .ok (.ofBody 200 body) else .error .timeout,
    { portals := ["down", "honest"] }⟩
  have hanswer : (c.transport.visits (downloadRequest link) c.config.portals ())[1]?
      = some ⟨"honest", .ok (.ofBody 200 body)⟩ := by
    rw [Transport.visits_steady]
    rfl
  have hhonest : Download.verify (Response.ofBody 200 body).body link none = .ok d := hverify none
  have hserved := download_of_honest htarget hanswer rfl hhonest
  exact ⟨link, body, d, hfile, c, rfl, hanswer, hserved⟩

end Client

end Trustless.Portal
