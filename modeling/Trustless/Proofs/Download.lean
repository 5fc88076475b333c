import Trustless.Download
import Trustless.Proofs.Link
import Trustless.Proofs.Merkle.Binding

/-!
# What a download is decided by

The answer to the request for a link to data is checked by its range proof before anything in it is
read. Until then every failure is the portal's fault, and from then on none is. What is decided
afterwards depends on the checked bytes alone, and the root in the link fixes these.

* `Authenticated`: the body is long enough and its range proof is accepted.
* `verify_eq_cut`: an authenticated body is cut, whatever else came with it.
* `settled_iff_authenticated`: a result for which no other portal is asked was authenticated.
* `authenticated_answer`: the answer of a portal that has the sector is authenticated.
* `verify_settled_unique`: two settled results for one link are the same, and so are the bodies, or
  what was hashed collides.
-/

namespace Trustless.Download

variable {link : Link} {offset size : Nat} {body body' : ByteArray} {header header' : Option String}

/-- A result for which no other portal is asked: a file, or a failure that is not counted as the
portal's fault. -/
def Settled (result : Except DownloadError Download) : Prop :=
  ∀ e, result = .error e → e.portalFault = false

/-- The first bytes of the body are the data of the link, and the others prove it. -/
def Authenticated (link : Link) (offset size : Nat) (body : ByteArray) : Prop :=
  size ≤ body.size ∧
    RangeProof.verify .blake2b link.root offset size (body.extract 0 size)
      (body.extract size body.size) = .ok ()

/-- Everything that is hashed to check a body against a link to data. -/
def inputs (offset size : Nat) (body : ByteArray) : List ByteArray :=
  RangeProof.inputs .blake2b offset size (body.extract 0 size) (body.extract size body.size)

/-! ## A link to data -/

theorem locate_data (h : link.target = .ok (.data offset size)) (header : Option String) :
    locate link header = .ok (link, .data offset size) := by
  unfold locate
  rw [h]
  rfl

theorem verify_of_short (h : link.target = .ok (.data offset size)) (hs : body.size < size)
    (header : Option String) :
    verify body link header = .error (.bodyTooShort size body.size) := by
  unfold verify
  rw [locate_data h]
  show (if body.size < size then _ else _) = _
  rw [if_pos hs]
  rfl

/-- A body that is long enough is checked by its range proof and then cut. -/
theorem verify_of_long (h : link.target = .ok (.data offset size)) (hs : size ≤ body.size)
    (header : Option String) :
    verify body link header =
      ((RangeProof.verify .blake2b link.root offset size (body.extract 0 size)
        (body.extract size body.size)).mapError .merkle >>= fun _ =>
          cut link (body.extract 0 size)) := by
  unfold verify
  rw [locate_data h]
  show (if body.size < size then _ else _) = _
  rw [if_neg (Nat.not_lt_of_le hs)]
  rfl

/-- **An authenticated body is cut**, whatever else came with it. -/
theorem verify_eq_cut (h : link.target = .ok (.data offset size))
    (ha : Authenticated link offset size body) (header : Option String) :
    verify body link header = cut link (body.extract 0 size) := by
  obtain ⟨hs, hv⟩ := ha
  rw [verify_of_long h hs, hv]
  rfl

/-- Data that reaches as far as its layout says is cut into its parts. -/
theorem cut_of_fits {data : ByteArray} {layout : Skyfile.Layout} (link : Link)
    (hlayout : Skyfile.Layout.decode data = .ok layout) (hfit : layout.contentEnd ≤ data.size) :
    cut link data = .ok
      ⟨link, layout, data.extract (Skyfile.layoutSize + layout.fanoutSize.toNat)
        (Skyfile.layoutSize + layout.fanoutSize.toNat + layout.metadataSize.toNat),
        data.extract layout.fileStart layout.contentEnd⟩ := by
  unfold cut
  rw [hlayout]
  show (if layout.contentEnd ≤ data.size then _ else _) = _
  rw [if_pos hfit]
  rfl

/-- What is wrong with checked data is not the portal's fault. -/
theorem settled_cut (link : Link) (data : ByteArray) : Settled (cut link data) := by
  intro e he
  cases hl : Skyfile.Layout.decode data with
  | error source =>
    unfold cut at he
    rw [hl] at he
    cases he
    rfl
  | ok layout =>
    by_cases hfit : layout.contentEnd ≤ data.size
    · rw [cut_of_fits link hl hfit] at he
      cases he
    · unfold cut at he
      rw [hl] at he
      change (if layout.contentEnd ≤ data.size then _ else _) = _ at he
      rw [if_neg hfit] at he
      cases he
      rfl

/-- **A result is settled exactly where the body is authenticated.** -/
theorem settled_iff_authenticated (h : link.target = .ok (.data offset size))
    (header : Option String) :
    Settled (verify body link header) ↔ Authenticated link offset size body := by
  constructor
  · intro hsettled
    by_cases hs : size ≤ body.size
    · cases hv : RangeProof.verify .blake2b link.root offset size (body.extract 0 size)
          (body.extract size body.size) with
      | ok u => exact ⟨hs, hv⟩
      | error e =>
        rw [verify_of_long h hs, hv] at hsettled
        exact absurd (hsettled (.merkle e) rfl) Bool.noConfusion
    · rw [verify_of_short h (Nat.lt_of_not_le hs)] at hsettled
      exact absurd (hsettled _ rfl) Bool.noConfusion
  · intro ha
    rw [verify_eq_cut h ha]
    exact settled_cut link _

/-! ## An honest portal -/

/-- What a link to data covers can be proved. -/
theorem isLeafRange_of_target (h : link.target = .ok (.data offset size)) :
    RangeProof.IsLeafRange offset size := by
  obtain ⟨⟨m, rfl⟩, ⟨n, rfl⟩, hpos, hend⟩ := Target.decode_aligned h
  refine ⟨hpos, ?_, ?_, hend⟩
  · simp only [Target.page, Sector.leafSize]
    omega
  · simp only [Target.page, Sector.leafSize]
    omega

/-- **The answer of a portal that has the sector is authenticated**: the data of the link, followed
by its proof. -/
theorem authenticated_answer {sector : ByteArray} (hs : sector.size = Sector.size)
    (hroot : Hasher.blake2b.merkleRoot sector = .ok link.root)
    (h : link.target = .ok (.data offset size)) :
    ∃ proof, RangeProof.build .blake2b sector offset size = .ok proof ∧
      (sector.extract offset (offset + size)).size = size ∧
      Authenticated link offset size (sector.extract offset (offset + size) ++ proof) := by
  obtain ⟨first, last, hr⟩ := RangeProof.leafRange_of_isLeafRange (isLeafRange_of_target h)
  have hsize : (sector.extract offset (offset + size)).size = size := by
    have hend := (isLeafRange_of_target h).2.2.2
    rw [ByteArray.size_extract, hs]
    omega
  have hr' : Hasher.blake2b.merkleRoot sector = .ok _ := RangeProof.merkleRoot_sector hs
  obtain hsame := Except.ok.inj (hroot.symm.trans hr')
  refine ⟨_, RangeProof.build_eq hs hr, hsize, ?_, ?_⟩
  · rw [ByteArray.size_append, hsize]
    exact Nat.le_add_right _ _
  · rw [ByteArray.extract_append_eq_left hsize.symm,
      ByteArray.extract_append_eq_right hsize.symm ByteArray.size_append, hsame]
    exact RangeProof.verify_honestProof hs hr

/-! ## Two portals -/

/-- A body is its data and its proof. -/
theorem eq_of_parts (hdata : body.extract 0 size = body'.extract 0 size)
    (hproof : body.extract size body.size = body'.extract size body'.size)
    (hs : size ≤ body.size) (hs' : size ≤ body'.size) : body = body' := by
  have hsplit : ∀ b : ByteArray, size ≤ b.size →
      b = b.extract 0 size ++ b.extract size b.size := by
    intro b hb
    rw [← ByteArray.extract_eq_extract_append_extract size (Nat.zero_le _) hb,
      ByteArray.extract_zero_size]
  rw [hsplit body hs, hsplit body' hs', hdata, hproof]

/-- **Portals cannot make two clients disagree about a link to data.** Two settled results come from
the same body and are the same, whatever headers came along, or what the two checks hashed
collides. -/
theorem verify_settled_unique (h : link.target = .ok (.data offset size))
    (hsettled : Settled (verify body link header))
    (hsettled' : Settled (verify body' link header')) :
    (body = body' ∧ verify body link header = verify body' link header') ∨
      Hasher.blake2b.Collides (inputs offset size body) (inputs offset size body') := by
  -- Both bodies are authenticated against the same root, and what follows only reads them.
  have ha := (settled_iff_authenticated h header).mp hsettled
  have ha' := (settled_iff_authenticated h header').mp hsettled'
  refine (RangeProof.verify_unique ha.2 ha'.2).imp_left fun ⟨hdata, hproof⟩ => ?_
  obtain rfl := eq_of_parts hdata hproof ha.1 ha'.1
  refine ⟨rfl, ?_⟩
  rw [verify_eq_cut h ha header, verify_eq_cut h ha header']

theorem verify_settled_unique_zeros :
    ∃ (link : Link) (body : ByteArray), link.target = .ok (.data 0 4096) ∧
      Settled (verify body link none) ∧ Settled (verify body link (some "[]")) ∧
      (verify body link none = verify body link (some "[]") ∨
        Hasher.blake2b.Collides (inputs 0 4096 body) (inputs 0 4096 body)) := by
  have hs := Bytes.size_zeros Sector.size
  have hroot : Hasher.blake2b.merkleRoot (Bytes.zeros Sector.size)
      = .ok (Link.ofBits 0 (RangeProof.sectorRoot .blake2b (Bytes.zeros Sector.size))).root := by
    rw [Link.root_ofBits]
    exact RangeProof.merkleRoot_sector hs
  have h : (Link.ofBits 0 (RangeProof.sectorRoot .blake2b (Bytes.zeros Sector.size))).target
      = .ok (.data 0 4096) := by
    rw [Link.target, Link.bits_ofBits (by decide)]
    rfl
  obtain ⟨proof, -, -, ha⟩ := authenticated_answer hs hroot h
  have hsettled := (settled_iff_authenticated h none).mpr ha
  have hsettled' := (settled_iff_authenticated h (some "[]")).mpr ha
  exact ⟨_, _, h, hsettled, hsettled',
    (verify_settled_unique h hsettled hsettled').imp_left And.right⟩

end Trustless.Download
