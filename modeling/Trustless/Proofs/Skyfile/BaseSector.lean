import Trustless.Skyfile.BaseSector
import Trustless.Skyfile.Metadata
import Trustless.Proofs.Json.Value
import Trustless.Proofs.Link
import Trustless.Proofs.Merkle.Completeness
import Trustless.Proofs.Skyfile.Layout

/-!
# What the sector of a file holds

A sector that could be built holds layout, metadata and file in a row and zeros behind them, and its
link covers all of it. The metadata is a JSON text that reads back as what was written.

* `encode_eq_ok_iff`, `ofBytes?_encode`: the text of metadata reads back.
* `content_append`: the parts of a file in front of other bytes.
* `build_spec`, `exists_build`: what it takes that a sector is built, and what is built.
-/

namespace Trustless.Skyfile

open Json (Value)

namespace Metadata

/-- Metadata that was written passed the checks, and the text is its JSON. -/
theorem encode_eq_ok_iff {m : Metadata} {json : String} :
    m.encode = .ok json ↔ check m.toValue = .ok () ∧ json = m.toValue.compact := by
  unfold encode
  cases hcheck : check m.toValue with
  | error e => exact ⟨nofun, fun h => nomatch h.1⟩
  | ok u => exact ⟨fun h => ⟨rfl, (Except.ok.inj h).symm⟩, fun h => congrArg Except.ok h.2.symm⟩

/-- The name comes before the length, and the length fits 64 bits. -/
theorem readable_toValue (m : Metadata) : m.toValue.Readable 0 := by
  refine ⟨by decide, ?_, trivial, m.length.toNat_lt, trivial⟩
  have hkeys : "Filename" < "Length" := by decide
  exact List.pairwise_pair.mpr hkeys

/-- **The text of metadata reads back** as the metadata. -/
theorem ofBytes?_encode {m : Metadata} {json : String} (h : m.encode = .ok json) :
    Value.ofBytes? (Bytes.ofString json) = some m.toValue := by
  obtain ⟨-, rfl⟩ := encode_eq_ok_iff.mp h
  exact Value.ofBytes?_compact (readable_toValue m)

end Metadata

namespace BaseSector

variable {file metadata : ByteArray} {m : Metadata} {base : BaseSector}

theorem size_content (file metadata : ByteArray) :
    (content file metadata).size = layoutSize + metadata.size + file.size := by
  unfold content
  rw [ByteArray.size_append, ByteArray.size_append, ByteVector.size_eq]

/-- The parts of a file in front of other bytes. -/
theorem content_append (file metadata rest : ByteArray) :
    content file metadata ++ rest =
      (Layout.plaintext file.size.toUInt64 metadata.size.toUInt64).encode.toByteArray
        ++ (metadata ++ (file ++ rest)) := by
  unfold content
  rw [ByteArray.append_assoc, ByteArray.append_assoc]

/-- The sector of a file, where it fits. -/
def fill (file metadata : ByteArray) : ByteArray :=
  content file metadata ++ Bytes.zeros (Sector.size - (layoutSize + metadata.size + file.size))

theorem pad_content (file metadata : ByteArray) :
    Bytes.pad (content file metadata) 0 (Sector.size - (layoutSize + metadata.size + file.size))
      = fill file metadata :=
  Bytes.pad_eq_append _ _ _

theorem size_fill (h : layoutSize + metadata.size + file.size ≤ Sector.size) :
    (fill file metadata).size = Sector.size := by
  unfold fill
  rw [ByteArray.size_append, size_content, Bytes.size_zeros]
  exact Nat.add_sub_cancel' h

/-- A start of the sector that covers the parts of the file starts with all of them. -/
theorem fill_extract {covered : Nat} (h : layoutSize + metadata.size + file.size ≤ covered) :
    ∃ rest, (fill file metadata).extract 0 covered = content file metadata ++ rest := by
  have hall : (content file metadata).extract 0 covered = content file metadata := by
    rw [← size_content] at h
    rw [← Nat.max_eq_left h, ByteArray.extract_zero_max_size]
  unfold fill
  rw [ByteArray.extract_append, hall]
  exact ⟨_, rfl⟩

/-- **What it takes that a sector is built, and what is built.** -/
theorem build_spec (h : build file m = .ok base) :
    ∃ json, m.encode = .ok json ∧
      base.usedSize = layoutSize + (Bytes.ofString json).size + file.size ∧
      base.usedSize ≤ Sector.size ∧ base.sector = fill file (Bytes.ofString json) ∧
      ∃ root, Hasher.blake2b.merkleRoot base.sector = .ok root ∧
        Link.toData base.usedSize root = .ok base.link := by
  unfold build at h
  cases hjson : m.encode with
  | error e =>
    rw [hjson] at h
    cases h
  | ok json =>
    rw [hjson] at h
    refine ⟨json, rfl, ?_⟩
    change (if layoutSize + (Bytes.ofString json).size + file.size > Sector.size
      then _ else _) = _ at h
    by_cases hfit : layoutSize + (Bytes.ofString json).size + file.size > Sector.size
    · rw [if_pos hfit] at h
      cases h
    · rw [if_neg hfit, pad_content] at h
      cases hroot : Hasher.blake2b.merkleRoot (fill file (Bytes.ofString json)) with
      | error e =>
        rw [hroot] at h
        cases h
      | ok root =>
        rw [hroot] at h
        cases hlink : Link.toData (layoutSize + (Bytes.ofString json).size + file.size) root with
        | error e =>
          change (Except.mapError SkyfileError.link (Link.toData _ root) >>= _) = _ at h
          rw [hlink] at h
          cases h
        | ok link =>
          change (Except.mapError SkyfileError.link (Link.toData _ root) >>= _) = _ at h
          rw [hlink] at h
          obtain rfl := Except.ok.inj h
          exact ⟨rfl, Nat.le_of_not_lt hfit, rfl, root, hroot, hlink⟩

/-- A sector is built for every file that fits, with metadata that passes the checks. -/
theorem exists_build (file : ByteArray) {json : String} (hjson : m.encode = .ok json)
    (hfit : layoutSize + (Bytes.ofString json).size + file.size ≤ Sector.size) :
    ∃ base, build file m = .ok base := by
  obtain ⟨link, hlink⟩ := Link.exists_toData hfit
    (RangeProof.sectorRoot .blake2b (fill file (Bytes.ofString json)))
  have hroot : Hasher.blake2b.merkleRoot (fill file (Bytes.ofString json)) = .ok _ :=
    RangeProof.merkleRoot_sector (size_fill hfit)
  refine ⟨⟨fill file (Bytes.ofString json),
    layoutSize + (Bytes.ofString json).size + file.size, link⟩, ?_⟩
  unfold build
  rw [hjson]
  show (if layoutSize + (Bytes.ofString json).size + file.size > Sector.size
    then _ else _) = _
  rw [if_neg (Nat.not_lt_of_le hfit), pad_content, hroot]
  show (Except.mapError SkyfileError.link (Link.toData _ _) >>= _) = _
  rw [hlink]
  rfl

end BaseSector

end Trustless.Skyfile
