import Trustless.Proofs.Download
import Trustless.Proofs.Skyfile.BaseSector

/-!
# What was uploaded is downloaded

The link of a built sector covers layout, metadata and file. A portal that has the sector proves the
covered part, and cutting it gives back the parts it was put together from.

* `cut_content`: the parts of a file are cut apart again.
* `filename?_encode`: the metadata tells the name of the file.
* `download_build`: uploading and then downloading gives back the file.
-/

namespace Trustless

open Skyfile (Layout Metadata BaseSector)

namespace Download

variable {link : Link} {file metadata : ByteArray} {m : Metadata} {base : BaseSector}

/-- **The parts of a file are cut apart again**, whatever follows them. -/
theorem cut_content (link : Link) (file metadata rest : ByteArray) (hfile : file.size < UInt64.size)
    (hmetadata : metadata.size < UInt64.size) :
    cut link (BaseSector.content file metadata ++ rest) =
      .ok ⟨link, Layout.plaintext file.size.toUInt64 metadata.size.toUInt64, metadata, file⟩ := by
  have hf : file.size.toUInt64.toNat = file.size := UInt64.toNat_ofNat_of_lt hfile
  have hm : metadata.size.toUInt64.toNat = metadata.size := UInt64.toNat_ofNat_of_lt hmetadata
  have hdecode : Layout.decode (BaseSector.content file metadata ++ rest)
      = .ok (Layout.plaintext file.size.toUInt64 metadata.size.toUInt64) := by
    rw [BaseSector.content_append, Layout.decode_encode_append]
  have hstart : (Layout.plaintext file.size.toUInt64 metadata.size.toUInt64).fileStart
      = Skyfile.layoutSize + metadata.size := by
    unfold Layout.fileStart Layout.plaintext
    rw [hm]
    rfl
  have hend : (Layout.plaintext file.size.toUInt64 metadata.size.toUInt64).contentEnd
      = Skyfile.layoutSize + (metadata.size + file.size) := by
    unfold Layout.contentEnd
    rw [hstart, Nat.add_assoc]
    unfold Layout.plaintext
    rw [hf]
  have hfit : Skyfile.layoutSize + (metadata.size + file.size)
      ≤ (BaseSector.content file metadata ++ rest).size := by
    rw [ByteArray.size_append, BaseSector.size_content, ← Nat.add_assoc]
    exact Nat.le_add_right _ _
  have hmetadata' : (BaseSector.content file metadata ++ rest).extract (Skyfile.layoutSize + 0)
      (Skyfile.layoutSize + metadata.size) = metadata := by
    rw [BaseSector.content_append, Layout.extract_append_right,
      ByteArray.extract_append_eq_left rfl]
  have hfile' : (BaseSector.content file metadata ++ rest).extract
      (Skyfile.layoutSize + (metadata.size + 0)) (Skyfile.layoutSize + (metadata.size + file.size))
      = file := by
    rw [BaseSector.content_append, Layout.extract_append_right, ByteArray.extract_append_size_add,
      ByteArray.extract_append_eq_left rfl]
  rw [cut_of_fits link hdecode (by rw [hend]; exact hfit), hstart, hend]
  unfold Layout.plaintext at *
  rw [hm]
  exact congrArg Except.ok (by rw [Download.mk.injEq]; exact ⟨rfl, rfl, hmetadata', hfile'⟩)

/-- The metadata of a file tells its name. -/
theorem filename?_encode {d : Download} {json : String} (h : m.encode = .ok json)
    (hd : d.metadata = Bytes.ofString json) : d.filename? = some m.filename := by
  unfold filename? metadataValue?
  rw [hd, Metadata.ofBytes?_encode h]
  rfl

/-- **What was uploaded is downloaded.** The link of a sector that was built for a file is one to
data at the start of the sector. The covered part of the sector and the proof for it pass as an
answer to the request for the link, whatever header comes along, and give back the link, the file,
the text of its metadata, the layout of both, and the name of the file. -/
theorem download_build (h : BaseSector.build file m = .ok base) :
    ∃ covered proof json d, base.link.target = .ok (.data 0 covered) ∧
      covered ≤ base.sector.size ∧
      RangeProof.build .blake2b base.sector 0 covered = .ok proof ∧
      (∀ header, verify (base.sector.extract 0 covered ++ proof) base.link header = .ok d) ∧
      m.encode = .ok json ∧
      d.link = base.link ∧ d.file = file ∧ d.metadata = Bytes.ofString json ∧
      d.layout = Layout.plaintext file.size.toUInt64 (Bytes.ofString json).size.toUInt64 ∧
      d.filename? = some m.filename := by
  obtain ⟨json, hjson, hused, hfit, hsector, root, hroot, hlink⟩ := BaseSector.build_spec h
  obtain ⟨covered, htarget, hcovered, rfl⟩ := Link.target_of_toData hlink
  have hs : base.sector.size = Sector.size := by
    rw [hsector, BaseSector.size_fill (hused ▸ hfit)]
  obtain ⟨proof, hproof, hsize, ha⟩ := authenticated_answer hs hroot htarget
  rw [Nat.zero_add] at hsize ha
  have hle : covered ≤ base.sector.size := by
    have hend := (isLeafRange_of_target htarget).2.2.2
    rwa [hs, ← Nat.zero_add covered]
  obtain ⟨rest, hdata⟩ : ∃ rest, base.sector.extract 0 covered
      = BaseSector.content file (Bytes.ofString json) ++ rest := by
    rw [hsector]
    exact BaseSector.fill_extract (hused ▸ hcovered)
  have hcut := cut_content base.link file (Bytes.ofString json) rest
    (by simp only [Sector.size, UInt64.size] at *; omega)
    (by simp only [Sector.size, UInt64.size] at *; omega)
  refine ⟨covered, proof, json,
    ⟨base.link, Layout.plaintext file.size.toUInt64 (Bytes.ofString json).size.toUInt64,
      Bytes.ofString json, file⟩,
    htarget, hle, hproof, fun header => ?_, hjson, rfl, rfl, rfl, rfl, filename?_encode hjson rfl⟩
  rw [verify_eq_cut htarget ha header, ByteArray.extract_append_eq_left hsize.symm, hdata, hcut]

/-- A file of two bytes with a name that needs no escapes. -/
theorem download_build_hi :
    ∃ base, BaseSector.build (Bytes.ofString "hi") ⟨"hi.txt", 2⟩ = .ok base ∧
      ∃ covered proof json d, base.link.target = .ok (.data 0 covered) ∧
        covered ≤ base.sector.size ∧
        RangeProof.build .blake2b base.sector 0 covered = .ok proof ∧
        (∀ header, verify (base.sector.extract 0 covered ++ proof) base.link header = .ok d) ∧
        Metadata.encode ⟨"hi.txt", 2⟩ = .ok json ∧
        d.link = base.link ∧ d.file = Bytes.ofString "hi" ∧ d.metadata = Bytes.ofString json ∧
        d.layout = Layout.plaintext (Bytes.ofString "hi").size.toUInt64
          (Bytes.ofString json).size.toUInt64 ∧
        d.filename? = some "hi.txt" := by
  have hjson : Metadata.encode ⟨"hi.txt", 2⟩ = .ok (Metadata.toValue ⟨"hi.txt", 2⟩).compact :=
    Metadata.encode_eq_ok_iff.mpr ⟨by decide, rfl⟩
  obtain ⟨base, hbase⟩ := BaseSector.exists_build (Bytes.ofString "hi") hjson (by decide)
  exact ⟨base, hbase, download_build hbase⟩

end Download

end Trustless
