import Trustless.Proofs.Attribution
import Trustless.Proofs.Failure
import Trustless.Proofs.Guarded.Download
import Trustless.Proofs.Merkle.Refusal
import Trustless.Proofs.Skyfile.Layout

/-!
# A download is cut into its parts

A link to data covers whole pages of its sector, so that the layout fits into what it covers and the
range proof has a range that can be proved. What is then cut follows from the sizes in the layout
alone. They are any words, and whoever made the sector has chosen them: either the parts lie one
behind the other in the checked data, or the failure tells how much there would have to be.

* `Parts`: layout, fanout, metadata, file and rest in a row.
* `cut_outcome`: what cutting comes to.
* `Reachable`, `failsWith_verify`: the failures that there are.
* `verify_partition`: all of it at once.
-/

namespace Trustless.Download

open Skyfile (Layout layoutSize)

variable {requested link : Link} {offset size : Nat} {body data : ByteArray}
  {header : Option String} {target : Target} {layout : Layout} {e : DownloadError}

/-! ## Parts -/

/-- Checked data is the layout of a download, a fanout, the metadata and the file, each as long as
the layout says, and a rest. -/
def Parts (data : ByteArray) (d : Download) : Prop :=
  ∃ fanout rest : ByteArray,
    data = d.layout.encode.toByteArray ++ fanout ++ d.metadata ++ d.file ++ rest ∧
      fanout.size = d.layout.fanoutSize.toNat ∧ d.metadata.size = d.layout.metadataSize.toNat ∧
      d.file.size = d.layout.fileSize.toNat

/-- What the sizes in a layout add up to. -/
theorem contentEnd_eq (layout : Layout) :
    layout.contentEnd = layoutSize + layout.metadataSize.toNat + layout.fanoutSize.toNat
      + layout.fileSize.toNat := rfl

theorem parts_of_fits (link : Link) (hlayout : Layout.decode data = .ok layout)
    (hfit : layout.contentEnd ≤ data.size) :
    Parts data ⟨link, layout, data.extract (layoutSize + layout.fanoutSize.toNat)
      (layoutSize + layout.fanoutSize.toNat + layout.metadataSize.toNat),
      data.extract layout.fileStart layout.contentEnd⟩ := by
  have hend := contentEnd_eq layout
  have hstart : layout.fileStart
      = layoutSize + layout.fanoutSize.toNat + layout.metadataSize.toNat :=
    Nat.add_right_comm _ _ _
  have hnext : ∀ {i j : Nat}, i ≤ j → data.extract 0 i ++ data.extract i j = data.extract 0 j :=
    fun hij => (ByteArray.extract_eq_extract_append_extract _ (Nat.zero_le _) hij).symm
  obtain ⟨-, hencode⟩ := Layout.encode_of_decode hlayout
  refine ⟨data.extract layoutSize (layoutSize + layout.fanoutSize.toNat),
    data.extract layout.contentEnd data.size, ?_, ?_, ?_, ?_⟩
  · dsimp only
    rw [hencode, hstart, hnext (Nat.le_add_right _ _), hnext (Nat.le_add_right _ _),
      hnext (by omega), hnext hfit, ByteArray.extract_zero_size]
  all_goals
    dsimp only
    rw [ByteArray.size_extract]
    omega

theorem cut_of_not_fits (link : Link) (hlayout : Layout.decode data = .ok layout)
    (hout : data.size < layout.contentEnd) :
    cut link data = .error (.contentInconsistent
      (if layout.contentEnd < UInt64.size then layout.contentEnd else UInt64.size - 1)
      data.size) := by
  have hneeded : min layout.contentEnd (UInt64.size - 1)
      = if layout.contentEnd < UInt64.size then layout.contentEnd else UInt64.size - 1 := by
    split <;> omega
  unfold cut
  rw [hlayout, ← hneeded]
  show (if layout.contentEnd ≤ data.size then _ else _) = _
  rw [if_neg (Nat.not_le_of_lt hout)]
  rfl

/-- **What cutting comes to**, for data that the layout fits into. -/
theorem cut_outcome (link : Link) (h : layoutSize ≤ data.size) :
    ∃ layout, Layout.decode data = .ok layout ∧
      (layout.contentEnd ≤ data.size → ∃ d, cut link data = .ok d ∧ d.link = link ∧
        d.layout = layout ∧ Parts data d) ∧
      (data.size < layout.contentEnd → cut link data = .error (.contentInconsistent
        (if layout.contentEnd < UInt64.size then layout.contentEnd else UInt64.size - 1)
        data.size)) := by
  have hdecode : ∃ layout, Layout.decode data = .ok layout := ⟨_, dif_pos h⟩
  obtain ⟨layout, hlayout⟩ := hdecode
  refine ⟨layout, hlayout, fun hfit => ?_, cut_of_not_fits link hlayout⟩
  exact ⟨_, cut_of_fits link hlayout hfit, rfl, rfl, parts_of_fits link hlayout hfit⟩

/-! ## Failures -/

/-- The failures that there are: of a range proof, only its length and its root can be wrong, and
the layout can always be read. -/
def Reachable : DownloadError → Prop
  | .layout _ => False
  | .merkle source => (∃ expected got, source = .proofLength expected got) ∨ source = .rootMismatch
  | _ => True

/-- What resolving the requested link gives is the link that is checked against. -/
theorem resolvesTo_of_locate (h : locate requested header = .ok (link, target)) :
    ResolvesTo requested header link ∧ link.target = .ok target := by
  cases hrequested : requested.target with
  | error source =>
    unfold locate at h
    rw [hrequested] at h
    cases h
  | ok t =>
    cases t with
    | data offset size =>
      rw [locate_data hrequested] at h
      cases h
      exact ⟨.data hrequested, hrequested⟩
    | entry =>
      cases header with
      | none =>
        unfold locate at h
        rw [hrequested] at h
        cases h
      | some text =>
        rw [locate_entry hrequested, bind_eq_ok_iff] at h
        obtain ⟨link', hresolve, h⟩ := h
        rw [bind_eq_ok_iff] at h
        obtain ⟨target', htarget, h⟩ := h
        cases h
        rw [mapError_eq_ok_iff] at hresolve htarget
        unfold Resolution.resolve at hresolve
        rw [bind_eq_ok_iff] at hresolve
        obtain ⟨ps, hread, hchain⟩ := hresolve
        exact ⟨.entry hrequested rfl hread hchain, htarget⟩

/-- Nothing about a range proof or a layout is found out by resolving the link. -/
theorem failsWith_locate (requested : Link) (header : Option String) :
    FailsWith Reachable (locate requested header) := by
  unfold locate
  refine .bind (.mapError (fun _ => trivial) _) fun target => ?_
  cases target with
  | data offset size => exact .ok _
  | entry =>
    cases header with
    | none => exact .error trivial
    | some text =>
      refine .bind (.mapError (fun _ => trivial) _) fun link => ?_
      exact .bind (.mapError (fun _ => trivial) _) fun target => .ok _

/-- Only the length of a range proof and its root can be wrong: a link to data covers a range that
can be proved, and what is taken from the body has the length of the range. -/
theorem failsWith_range (h : link.target = .ok (.data offset size)) (hs : size ≤ body.size) :
    FailsWith Reachable ((RangeProof.verify .blake2b link.root offset size (body.extract 0 size)
      (body.extract size body.size)).mapError .merkle) := by
  intro e he
  cases hv : RangeProof.verify .blake2b link.root offset size (body.extract 0 size)
      (body.extract size body.size) with
  | ok _ =>
    rw [hv] at he
    cases he
  | error source =>
    rw [hv] at he
    cases he
    have hrange := isLeafRange_of_target h
    rcases RangeProof.error_cases hv with hfault | ⟨-, rfl⟩
    · cases hfault with
      | range hfault => exact absurd hrange (RangeProof.not_isLeafRange_of_isRangeFault hfault)
      | dataLength _ hdata =>
        rw [ByteArray.size_extract] at hdata
        omega
      | proofLength => exact .inl ⟨_, _, rfl⟩
    · exact .inr rfl

/-- A link to data covers more bytes than a layout has. -/
theorem layoutSize_le_of_target (h : link.target = .ok (.data offset size)) : layoutSize ≤ size := by
  obtain ⟨-, ⟨n, rfl⟩, hpos, -⟩ := Target.decode_aligned h
  simp only [Target.page, layoutSize] at *
  omega

theorem failsWith_cut (link : Link) (h : layoutSize ≤ data.size) :
    FailsWith Reachable (cut link data) := by
  obtain ⟨layout, -, hfits, hout⟩ := cut_outcome link h
  by_cases hfit : layout.contentEnd ≤ data.size
  · obtain ⟨d, hd, -⟩ := hfits hfit
    rw [hd]
    exact .ok d
  · rw [hout (Nat.lt_of_not_le hfit)]
    exact .error trivial

/-- **The failures that there are**, whatever is requested and whatever is served. -/
theorem failsWith_verify (body : ByteArray) (requested : Link) (header : Option String) :
    FailsWith Reachable (verify body requested header) := by
  cases hlocate : locate requested header with
  | error e =>
    intro e' he'
    rw [verify_of_locate_error hlocate] at he'
    cases he'
    exact failsWith_locate requested header e hlocate
  | ok found =>
    obtain ⟨link, target⟩ := found
    obtain ⟨hlink, -⟩ := resolvesTo_of_locate hlocate
    obtain ⟨offset, size, htarget⟩ := hlink.target
    rw [verify_of_resolvesTo hlink]
    by_cases hs : size ≤ body.size
    · rw [verify_of_long htarget hs]
      refine .bind (failsWith_range htarget hs) fun _ => failsWith_cut link ?_
      have hlayout := layoutSize_le_of_target htarget
      rw [ByteArray.size_extract]
      omega
    · rw [verify_of_short htarget (Nat.lt_of_not_le hs)]
      exact .error trivial

/-! ## Outcomes -/

/-- What checking the answer to a request comes to. -/
structure VerifyPartition (body : ByteArray) (requested : Link) (header : Option String) : Prop where
  /-- Nothing stops on the way: no sum leaves its word, and nothing is cut beyond its bytes. -/
  words : Guarded.verify body requested header = .of (verify body requested header)
  /-- The layout can always be read. -/
  layout : ∀ source, verify body requested header ≠ .error (.layout source)
  /-- Only the length of a range proof and its root can be wrong. -/
  merkle : ∀ source, verify body requested header = .error (.merkle source) →
    (∃ expected got, source = .proofLength expected got) ∨ source = .rootMismatch
  /-- Authenticated data is cut into its parts exactly if they fit. -/
  parts : ∀ link offset size, ResolvesTo requested header link →
    link.target = .ok (.data offset size) → Authenticated link offset size body →
    ∃ layout, Layout.decode (body.extract 0 size) = .ok layout ∧
      (layout.contentEnd ≤ size → ∃ d, verify body requested header = .ok d ∧ d.link = link ∧
        d.layout = layout ∧ Parts (body.extract 0 size) d) ∧
      (size < layout.contentEnd → verify body requested header = .error (.contentInconsistent
        (if layout.contentEnd < UInt64.size then layout.contentEnd else UInt64.size - 1) size))

/-- **A download is cut into its parts, or fails for how much there would have to be.** Whatever is
requested and whatever is served, nothing stops on the way, the layout can be read, and of a range
proof only the length and the root can be wrong. Authenticated data whose layout tells sizes that
fit is that layout, a fanout, the metadata, the file and a rest in a row. -/
theorem verify_partition (body : ByteArray) (requested : Link) (header : Option String) :
    VerifyPartition body requested header where
  words := Guarded.verify_eq body requested header
  layout source h := failsWith_verify body requested header _ h
  merkle source h := failsWith_verify body requested header _ h
  parts := by
    intro link offset size hlink htarget hauthenticated
    have hsize : (body.extract 0 size).size = size := by
      have := hauthenticated.1
      rw [ByteArray.size_extract]
      omega
    have hcut := cut_outcome link (hsize.symm ▸ layoutSize_le_of_target htarget)
    rw [hsize] at hcut
    rwa [verify_of_resolvesTo hlink, verify_eq_cut htarget hauthenticated]

end Trustless.Download
