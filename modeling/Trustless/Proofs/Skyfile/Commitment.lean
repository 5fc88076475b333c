import Trustless.Proofs.Merkle.Binding
import Trustless.Proofs.Merkle.Root
import Trustless.Proofs.Upload

/-!
# A link commits to a file and its metadata

The link of a file holds the root of the sector that was built for it. Sectors have one length, so
that two of them with one root are the same, or what was hashed for them collides. A sector tells what
it was filled with: the layout at its start tells where the metadata and the file end, whatever bytes
they end with, so that the zeros behind them are never taken for a part of the file.

* `sector_unique`: sectors with one root are the same.
* `cut_fill`, `fill_inj`: the file and the text of its metadata are read off the sector.
* `encode_inj`: the metadata is read off its text.
* `linkInputs`, `mem_linkInputs`: what is hashed for the link of a file.
* `linkOf_binding`: files with one link are the same, and so is their metadata.
-/

namespace Trustless

/-- **Sectors with one root are the same**, or what is hashed for them collides. -/
theorem RangeProof.sector_unique {H : Hasher} {root : Digest} {sector sector' : ByteArray}
    (hs : sector.size = Sector.size) (hs' : sector'.size = Sector.size)
    (h : H.merkleRoot sector = .ok root) (h' : H.merkleRoot sector' = .ok root) :
    sector = sector' ∨ H.Collides (H.rootInputs sector) (H.rootInputs sector') := by
  have hwhole : sector'.extract 0 (0 + Sector.size) = sector' := by
    rw [Nat.zero_add, ← hs', ByteArray.extract_zero_size]
  have hanswer := verify_sector hs' h' (verify_whole hs h)
  rwa [hwhole, inputs_whole] at hanswer

namespace Skyfile

/-- **Metadata is read off its text.** -/
theorem Metadata.encode_inj {m m' : Metadata} {json : String} (h : m.encode = .ok json)
    (h' : m'.encode = .ok json) : m = m' := by
  have hvalue : m.toValue = m'.toValue :=
    Option.some.inj ((ofBytes?_encode h).symm.trans (ofBytes?_encode h'))
  have hfilename : some m.filename = some m'.filename :=
    congrArg (fun v => v.field? "Filename" >>= Json.Value.asString?) hvalue
  have hlength : some m.length.toNat = some m'.length.toNat :=
    congrArg (fun v => v.field? "Length" >>= Json.Value.asNat?) hvalue
  rw [Metadata.mk.injEq]
  exact ⟨Option.some.inj hfilename, UInt64.toNat_inj.mp (Option.some.inj hlength)⟩

namespace BaseSector

variable {file metadata file' metadata' : ByteArray} {m m' : Metadata} {link : Link}
  {base : BaseSector}

/-! ## What a sector tells -/

/-- A sector is cut into the parts that it was filled with. -/
theorem cut_fill (link : Link) (h : layoutSize + metadata.size + file.size ≤ Sector.size) :
    Download.cut link (fill file metadata) =
      .ok ⟨link, Layout.plaintext file.size.toUInt64 metadata.size.toUInt64, metadata, file⟩ := by
  have hlt : Sector.size < UInt64.size := by decide
  exact Download.cut_content link file metadata _ (by omega) (by omega)

/-- **The file and the text of its metadata are read off the sector.** -/
theorem fill_inj (hfit : layoutSize + metadata.size + file.size ≤ Sector.size)
    (hfit' : layoutSize + metadata'.size + file'.size ≤ Sector.size)
    (h : fill file metadata = fill file' metadata') : file = file' ∧ metadata = metadata' := by
  have hcut := cut_fill ⟨.zero 34⟩ hfit
  rw [h, cut_fill ⟨.zero 34⟩ hfit', Except.ok.injEq, Download.mk.injEq] at hcut
  exact ⟨hcut.2.2.2.symm, hcut.2.2.1.symm⟩

/-! ## What is hashed for a link -/

/-- Everything that is hashed for the link of a file. -/
def linkInputs (file : ByteArray) (m : Metadata) : List ByteArray :=
  match build file m with
  | .ok base => Hasher.blake2b.rootInputs base.sector
  | .error _ => []

theorem linkInputs_of_build (h : build file m = .ok base) :
    linkInputs file m = Hasher.blake2b.rootInputs base.sector := by
  rw [linkInputs, h]

/-- What is hashed for a link are leaves of 64 bytes and pairs of hashes, each after its own
byte. -/
theorem mem_linkInputs {x : ByteArray} (h : x ∈ linkInputs file m) :
    (∃ b : ByteArray, b.size = Sector.leafSize ∧ x = Hasher.leafInput b) ∨
      ∃ l r, x = Hasher.nodeInput l r := by
  cases hbuild : build file m with
  | ok base =>
    rw [linkInputs_of_build hbuild] at h
    exact Hasher.mem_rootInputs h
  | error e =>
    rw [linkInputs, hbuild] at h
    exact absurd h List.not_mem_nil

/-- A file with a link has a sector that fits, filled with the file and the text of its metadata,
and the link holds the root of that sector. -/
theorem linkOf_spec (h : linkOf file m = .ok link) :
    ∃ json, m.encode = .ok json ∧
      layoutSize + (Bytes.ofString json).size + file.size ≤ Sector.size ∧
      Hasher.blake2b.merkleRoot (fill file (Bytes.ofString json)) = .ok link.root ∧
      linkInputs file m = Hasher.blake2b.rootInputs (fill file (Bytes.ofString json)) := by
  unfold linkOf at h
  cases hbuild : build file m with
  | error e =>
    rw [hbuild] at h
    cases h
  | ok base =>
    rw [hbuild] at h
    obtain rfl : base.link = link := Except.ok.inj h
    obtain ⟨json, hjson, hused, hfit, hsector, root, hroot, hlink⟩ := build_spec hbuild
    obtain ⟨-, -, -, rfl⟩ := Link.target_of_toData hlink
    rw [linkInputs_of_build hbuild]
    exact ⟨json, hjson, hused ▸ hfit, hsector ▸ hroot, by rw [hsector]⟩

/-! ## Files with one link -/

/-- **A link commits to a file and its metadata.** Files with one link are equal, with equal names
and lengths in their metadata, or two different inputs with one hash can be read off what was hashed
for the link of each. All of these are leaves of 64 bytes and pairs of hashes, each after its own
byte. -/
theorem linkOf_binding (h : linkOf file m = .ok link) (h' : linkOf file' m' = .ok link) :
    ((file = file' ∧ m = m') ∨ Hasher.blake2b.Collides (linkInputs file m) (linkInputs file' m')) ∧
    ∀ x, x ∈ linkInputs file m ∨ x ∈ linkInputs file' m' →
      (∃ b : ByteArray, b.size = Sector.leafSize ∧ x = Hasher.leafInput b) ∨
        ∃ l r, x = Hasher.nodeInput l r := by
  refine ⟨?_, fun x hx => hx.elim mem_linkInputs mem_linkInputs⟩
  obtain ⟨json, hjson, hfit, hroot, hinputs⟩ := linkOf_spec h
  obtain ⟨json', hjson', hfit', hroot', hinputs'⟩ := linkOf_spec h'
  rw [hinputs, hinputs']
  refine (RangeProof.sector_unique (size_fill hfit) (size_fill hfit') hroot hroot').imp_left
    fun hsector => ?_
  obtain ⟨hfile, htext⟩ := fill_inj hfit hfit' hsector
  obtain rfl := Bytes.ofString_inj.mp htext
  exact ⟨hfile, Metadata.encode_inj hjson hjson'⟩

/-- Whatever has the link of a file of two bytes is that file, under its name. -/
theorem linkOf_binding_hi :
    ∃ link, linkOf (Bytes.ofString "hi") ⟨"hi.txt", 2⟩ = .ok link ∧
      ∀ file m, linkOf file m = .ok link →
        (Bytes.ofString "hi" = file ∧ ⟨"hi.txt", 2⟩ = m) ∨
          Hasher.blake2b.Collides (linkInputs (Bytes.ofString "hi") ⟨"hi.txt", 2⟩)
            (linkInputs file m) := by
  have hjson : Metadata.encode ⟨"hi.txt", 2⟩ = .ok (Metadata.toValue ⟨"hi.txt", 2⟩).compact :=
    Metadata.encode_eq_ok_iff.mpr ⟨by decide, rfl⟩
  obtain ⟨base, hbase⟩ := exists_build (Bytes.ofString "hi") hjson (by decide)
  have hlink : linkOf (Bytes.ofString "hi") ⟨"hi.txt", 2⟩ = .ok base.link := by
    rw [linkOf, hbase]
    rfl
  exact ⟨base.link, hlink, fun file m h => (linkOf_binding hlink h).1⟩

end BaseSector

end Skyfile

end Trustless
