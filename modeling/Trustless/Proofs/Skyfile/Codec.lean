import Trustless.Proofs.Guarded.Download
import Trustless.Proofs.Skyfile.Layout

/-!
# Layouts and their bytes are the same

Any 99 bytes are a layout, and no two layouts have the same bytes: what is read was written, and what
was written is read, whatever stands behind it. The places of the fields are told twice, where they are
written and where they are read. In place, every field is copied behind those before it, over zeros
that are left, so that no two places overlap and none is left out.

* `Guarded.encodeLayout_eq`: writing in place gives the fields in a row.
* `exists_decode`, `decode_eq_error_iff`: what reading comes to.
* `fileOffset?_eq_some_iff`: where the file starts.
* `encode_decode_bijective`: all of it, for every layout and every byte string.
-/

namespace Trustless

open Skyfile (Layout layoutSize)

/-! ## Writing in place -/

/-- **Writing in place gives the fields in a row**, and it does not stop. -/
theorem Guarded.encodeLayout_eq (l : Layout) :
    encodeLayout l = of (.ok l.encode.toByteArray) := by
  have hnone : (ByteVector.zero 0).toByteArray = .empty := rfl
  have hzeros : Bytes.zeros layoutSize = (ByteVector.zero 0).toByteArray ++ Bytes.zeros (98 + 1) :=
    (Bytes.zeros_append 0 99).symm
  rw [encodeLayout, hzeros]
  -- Every step names how many zeros it leaves.
  refine (copy_zeros_bind (.zero 0) (Layout.byte l.version) 98 _).trans ?_
  refine (copy_zeros_bind _ (Bytes.ofU64 l.fileSize) 90 _).trans ?_
  refine (copy_zeros_bind _ (Bytes.ofU64 l.metadataSize) 82 _).trans ?_
  refine (copy_zeros_bind _ (Bytes.ofU64 l.fanoutSize) 74 _).trans ?_
  refine (copy_zeros_bind _ (Layout.byte l.dataPieces) 73 _).trans ?_
  refine (copy_zeros_bind _ (Layout.byte l.parityPieces) 72 _).trans ?_
  refine (copy_zeros_bind _ l.cipherType 64 _).trans ?_
  refine (copy_zeros _ l.keyData 0).trans ?_
  have hrest : Bytes.zeros 0 = .empty := rfl
  unfold Layout.encode
  simp only [ByteVector.toByteArray_append, hnone, hrest, ByteArray.empty_append,
    ByteArray.append_empty]

namespace Skyfile.Layout

/-! ## Reading -/

/-- Enough bytes are read as a layout, which is written as the first of them. -/
theorem exists_decode {b : ByteArray} (h : layoutSize ≤ b.size) :
    ∃ l, decode b = .ok l ∧ l.encode.toByteArray = b.extract 0 layoutSize := by
  have hdecode : decode b = .ok _ := dif_pos h
  exact ⟨_, hdecode, (encode_of_decode hdecode).2⟩

theorem decode_eq_error_iff {b : ByteArray} {e : SkyfileError} :
    decode b = .error e ↔ b.size < layoutSize ∧ e = .layoutTooShort b.size := by
  unfold decode
  split
  · rename_i hsize
    simp [Nat.not_lt_of_le hsize]
  · rename_i hsize
    simp [Nat.lt_of_not_le hsize, eq_comm]

/-! ## Where the file starts -/

/-- Where the file starts is told exactly if it is a word. -/
theorem fileOffset?_eq_some_iff {l : Layout} {n : Nat} : l.fileOffset? = some n ↔
    n = layoutSize + l.metadataSize.toNat + l.fanoutSize.toNat ∧ n < UInt64.size := by
  unfold fileOffset? fileStart
  split
  · rename_i hword
    rw [Option.some.injEq]
    exact ⟨by rintro rfl; exact ⟨rfl, hword⟩, fun h => h.1.symm⟩
  · rename_i hword
    refine ⟨nofun, ?_⟩
    rintro ⟨rfl, h⟩
    exact absurd h hword

theorem fileOffset?_eq_none_iff {l : Layout} : l.fileOffset? = none ↔
    UInt64.size ≤ layoutSize + l.metadataSize.toNat + l.fanoutSize.toNat := by
  rw [fileOffset?, ite_eq_right_iff, fileStart, ← Nat.not_lt]
  exact forall_congr' fun _ => by simp

/-! ## Both ways -/

theorem encode_injective : Function.Injective encode := by
  intro l l' h
  have hread := decode_encode_append l .empty
  rw [h, decode_encode_append, Except.ok.injEq] at hread
  exact hread.symm

/-- Any 99 bytes are those of a layout. -/
theorem encode_surjective : Function.Surjective encode := by
  intro v
  obtain ⟨l, -, hencode⟩ := exists_decode v.size_eq.ge
  have hall := ByteArray.extract_zero_size (b := v.toByteArray)
  rw [v.size_eq] at hall
  exact ⟨l, ByteVector.ext (hencode.trans hall)⟩

/-- What can be told of a layout from its bytes. -/
structure WriteOutcome (l : Layout) : Prop where
  /-- The layout is read back, whatever follows its bytes. -/
  readBack : ∀ rest : ByteArray, decode (l.encode.toByteArray ++ rest) = .ok l
  /-- Its bytes are those that copying every field to its place gives, and nothing stops on the
  way. -/
  inPlace : Guarded.encodeLayout l = .of (.ok l.encode.toByteArray)
  /-- The file starts behind layout, metadata and fanout, if that is a word. -/
  start : ∀ n, l.fileOffset? = some n ↔
    n = layoutSize + l.metadataSize.toNat + l.fanoutSize.toNat ∧ n < UInt64.size
  /-- There is no start exactly if the three together are none. -/
  noStart : l.fileOffset? = none ↔
    UInt64.size ≤ layoutSize + l.metadataSize.toNat + l.fanoutSize.toNat
  /-- Adding the parts one after the other, each time asking for an overflow, tells the same. -/
  words : Guarded.fileStart l = l.fileOffset?

/-- What reading a layout comes to. -/
structure ReadOutcome (b : ByteArray) : Prop where
  /-- With enough bytes there is a layout, and it is written as the first of them. -/
  written : layoutSize ≤ b.size ↔
    ∃ l, decode b = .ok l ∧ l.encode.toByteArray = b.extract 0 layoutSize
  /-- Only too few bytes are refused, with their number. -/
  refused : ∀ e, decode b = .error e ↔ b.size < layoutSize ∧ e = .layoutTooShort b.size
  /-- No field is read from beyond the bytes. -/
  words : Guarded.decodeLayout b = .of (decode b)

theorem writeOutcome (l : Layout) : WriteOutcome l where
  readBack := decode_encode_append l
  inPlace := Guarded.encodeLayout_eq l
  start _ := fileOffset?_eq_some_iff
  noStart := fileOffset?_eq_none_iff
  words := Guarded.fileStart_eq l

theorem readOutcome (b : ByteArray) : ReadOutcome b where
  written := ⟨exists_decode, fun ⟨_, hl, _⟩ => (encode_of_decode hl).1⟩
  refused _ := decode_eq_error_iff
  words := Guarded.decodeLayout_eq b

/-- **Layouts and strings of 99 bytes are in bijection.** For every layout, its bytes are read back as
the layout, whatever follows them, and writing it in place gives the same bytes; the start of its file
is told exactly if it is a word, whichever of the sums on the way is the first that is not. Every byte
string of at least 99 bytes is read as a layout whose bytes are its first 99, and every other one is
refused. -/
theorem encode_decode_bijective :
    Function.Bijective encode ∧ (∀ l : Layout, WriteOutcome l) ∧ ∀ b : ByteArray, ReadOutcome b :=
  ⟨⟨encode_injective, encode_surjective⟩, writeOutcome, readOutcome⟩

end Skyfile.Layout

end Trustless
