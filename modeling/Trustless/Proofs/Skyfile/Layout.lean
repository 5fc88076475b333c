import Trustless.Skyfile.Layout
import Trustless.Proofs.Bytes

/-!
# A layout is read back from its bytes

The fields of a layout stand in a row, each of its own size. Reading a field skips those before it.

* `encode_append`: the bytes of a layout in front of others, field by field.
* `decode_encode_append`: a layout is read back, whatever follows it.
* `encode_of_decode`: what was read is written as the same bytes.
-/

namespace Trustless.Skyfile.Layout

open Bytes

theorem encode_append (l : Layout) (rest : ByteArray) :
    l.encode.toByteArray ++ rest =
      (byte l.version).toByteArray ++ ((ofU64 l.fileSize).toByteArray ++
        ((ofU64 l.metadataSize).toByteArray ++ ((ofU64 l.fanoutSize).toByteArray ++
          ((byte l.dataPieces).toByteArray ++ ((byte l.parityPieces).toByteArray ++
            (l.cipherType.toByteArray ++ (l.keyData.toByteArray ++ rest))))))) := by
  unfold encode
  simp only [ByteVector.toByteArray_append, ByteArray.append_assoc]

theorem byteAt_byte_append (b : UInt8) (rest : ByteArray) :
    byteAt ((byte b).toByteArray ++ rest) 0 = b := by
  rw [byteAt_append_left (by rw [(byte b).size_eq]; decide)]
  rfl

theorem extract_append_left {n : Nat} (v : ByteVector n) (rest : ByteArray) :
    (v.toByteArray ++ rest).extract 0 n = v.toByteArray :=
  ByteArray.extract_append_eq_left v.size_eq.symm

theorem extract_append_right {n : Nat} (v : ByteVector n) (rest : ByteArray) (i j : Nat) :
    (v.toByteArray ++ rest).extract (n + i) (n + j) = rest.extract i j :=
  ByteArray.extract_append_size_add' v.size_eq.symm

/-- **A layout is read back**, whatever follows it. -/
theorem decode_encode_append (l : Layout) (rest : ByteArray) :
    decode (l.encode.toByteArray ++ rest) = .ok l := by
  have hsize : layoutSize ≤ (l.encode.toByteArray ++ rest).size := by
    rw [ByteArray.size_append, l.encode.size_eq]
    exact Nat.le_add_right _ _
  have hversion : byteAt (l.encode.toByteArray ++ rest) 0 = l.version := by
    rw [encode_append, byteAt_byte_append]
  have hfile : u64 (l.encode.toByteArray ++ rest) (1 + 0) = l.fileSize := by
    rw [encode_append, u64_append_right (byte _).size_eq, u64_ofU64_append]
  have hmetadata : u64 (l.encode.toByteArray ++ rest) (1 + (8 + 0)) = l.metadataSize := by
    rw [encode_append, u64_append_right (byte _).size_eq, u64_append_right (ofU64 _).size_eq,
      u64_ofU64_append]
  have hfanout : u64 (l.encode.toByteArray ++ rest) (1 + (8 + (8 + 0))) = l.fanoutSize := by
    rw [encode_append, u64_append_right (byte _).size_eq, u64_append_right (ofU64 _).size_eq,
      u64_append_right (ofU64 _).size_eq, u64_ofU64_append]
  have hdata : byteAt (l.encode.toByteArray ++ rest) (1 + (8 + (8 + (8 + 0)))) = l.dataPieces := by
    rw [encode_append, byteAt_append_right (byte _).size_eq, byteAt_append_right (ofU64 _).size_eq,
      byteAt_append_right (ofU64 _).size_eq, byteAt_append_right (ofU64 _).size_eq,
      byteAt_byte_append]
  have hparity : byteAt (l.encode.toByteArray ++ rest) (1 + (8 + (8 + (8 + (1 + 0)))))
      = l.parityPieces := by
    rw [encode_append, byteAt_append_right (byte _).size_eq, byteAt_append_right (ofU64 _).size_eq,
      byteAt_append_right (ofU64 _).size_eq, byteAt_append_right (ofU64 _).size_eq,
      byteAt_append_right (byte _).size_eq, byteAt_byte_append]
  have hcipher : (l.encode.toByteArray ++ rest).extract (1 + (8 + (8 + (8 + (1 + (1 + 0))))))
      (1 + (8 + (8 + (8 + (1 + (1 + 8)))))) = l.cipherType.toByteArray := by
    rw [encode_append, extract_append_right, extract_append_right, extract_append_right,
      extract_append_right, extract_append_right, extract_append_right, extract_append_left]
  have hkey : (l.encode.toByteArray ++ rest).extract (1 + (8 + (8 + (8 + (1 + (1 + (8 + 0)))))))
      (1 + (8 + (8 + (8 + (1 + (1 + (8 + 64))))))) = l.keyData.toByteArray := by
    rw [encode_append, extract_append_right, extract_append_right, extract_append_right,
      extract_append_right, extract_append_right, extract_append_right, extract_append_right,
      extract_append_left]
  rw [decode, dif_pos hsize]
  congr 1
  obtain ⟨version, fileSize, metadataSize, fanoutSize, dataPieces, parityPieces, cipher, key⟩ := l
  rw [Layout.mk.injEq]
  exact ⟨hversion, hfile, hmetadata, hfanout, hdata, hparity, ByteVector.ext hcipher,
    ByteVector.ext hkey⟩

theorem byte_byteAt {b : ByteArray} {i : Nat} (h : i < b.size) :
    (byte (byteAt b i)).toByteArray = b.extract i (i + 1) := by
  refine ext_byteAt ?_ fun r hr => ?_
  · rw [(byte _).size_eq, ByteArray.size_extract]
    omega
  · rw [(byte _).size_eq] at hr
    obtain rfl : r = 0 := by omega
    rw [byteAt_extract b (by omega)]
    rfl

/-- **A layout is written as the bytes that it was read from.** -/
theorem encode_of_decode {b : ByteArray} {l : Layout} (h : decode b = .ok l) :
    layoutSize ≤ b.size ∧ l.encode.toByteArray = b.extract 0 layoutSize := by
  rw [decode] at h
  by_cases hsize : layoutSize ≤ b.size
  · rw [dif_pos hsize] at h
    cases h
    refine ⟨hsize, ?_⟩
    unfold layoutSize at hsize
    -- Two neighbouring fields are one run of bytes.
    have hnext : ∀ {i j : Nat}, i ≤ j → b.extract 0 i ++ b.extract i j = b.extract 0 j :=
      fun hij => (ByteArray.extract_eq_extract_append_extract _ (Nat.zero_le _) hij).symm
    unfold encode
    simp only [ByteVector.toByteArray_append, ByteVector.slice]
    rw [byte_byteAt (by omega), ofU64_u64 (by omega), ofU64_u64 (by omega), ofU64_u64 (by omega),
      byte_byteAt (by omega), byte_byteAt (by omega), hnext (by decide), hnext (by decide),
      hnext (by decide), hnext (by decide), hnext (by decide), hnext (by decide),
      hnext (by decide)]
    rfl
  · rw [dif_neg hsize] at h
    cases h

end Trustless.Skyfile.Layout
