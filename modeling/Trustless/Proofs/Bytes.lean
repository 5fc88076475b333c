import Mathlib.Tactic.Ring
import Trustless.Bytes.LittleEndian

/-!
# Reading parts of byte strings

Sectors, proofs and layouts are put together by appending and taken apart by cutting. The facts here
say which byte, word or run is read after either.

* `byteAt_append_left`, `byteAt_append_right`, `byteAt_extract`: single bytes.
* `ext_byteAt`: byte strings of one length that read alike are equal.
* `byteAt_chunk`, `chunk_extract`: bytes of runs, and runs of an aligned part.
* `u64_append_left`, `u64_append_right`, `u64_extract`, `u64_ofU64_append`: words.
* `natOfDigits_inj`, `toNat_u64`, `ofU64_u64`, `ofU64_inj`: a word stands for its bytes, and is written
  as them.
* `pad_eq_append`, `zeros_append`: padding.
* `ofString_inj`: texts of the same bytes.
-/

namespace Trustless.Bytes

/-! ## Single bytes -/

theorem byteAt_of_lt {b : ByteArray} {i : Nat} (h : i < b.size) : byteAt b i = b[i] := by
  rw [byteAt, dif_pos h]

theorem byteAt_of_le {b : ByteArray} {i : Nat} (h : b.size ≤ i) : byteAt b i = 0 := by
  rw [byteAt, dif_neg (Nat.not_lt_of_le h)]

theorem byteAt_append_left {a b : ByteArray} {i : Nat} (h : i < a.size) :
    byteAt (a ++ b) i = byteAt a i := by
  have hab : i < (a ++ b).size := by rw [ByteArray.size_append]; omega
  rw [byteAt_of_lt hab, byteAt_of_lt h, ByteArray.getElem_append_left h]

theorem byteAt_append_right {a : ByteArray} {k : Nat} (h : a.size = k) (b : ByteArray) (i : Nat) :
    byteAt (a ++ b) (k + i) = byteAt b i := by
  subst h
  by_cases hi : i < b.size
  · have hab : a.size + i < (a ++ b).size := by rw [ByteArray.size_append]; omega
    rw [byteAt_of_lt hab, byteAt_of_lt hi, ByteArray.getElem_append_right (Nat.le_add_right _ _)]
    simp only [Nat.add_sub_cancel_left]
  · rw [byteAt_of_le (by rw [ByteArray.size_append]; omega), byteAt_of_le (by omega)]

theorem byteAt_extract (b : ByteArray) {i j r : Nat} (h : i + r < j) :
    byteAt (b.extract i j) r = byteAt b (i + r) := by
  by_cases hb : i + r < b.size
  · have he : r < (b.extract i j).size := by rw [ByteArray.size_extract]; omega
    rw [byteAt_of_lt he, byteAt_of_lt hb, ByteArray.getElem_extract]
  · rw [byteAt_of_le (by rw [ByteArray.size_extract]; omega), byteAt_of_le (by omega)]

/-- Byte strings of one length that read alike are equal. -/
theorem ext_byteAt {a b : ByteArray} (hsize : a.size = b.size)
    (h : ∀ i, i < a.size → byteAt a i = byteAt b i) : a = b := by
  refine ByteArray.ext_getElem hsize fun i ha hb => ?_
  rw [← byteAt_of_lt ha, ← byteAt_of_lt hb]
  exact h i ha

/-! ## Runs -/

theorem byteAt_chunk (b : ByteArray) {k r : Nat} (i : Nat) (h : r < k) :
    byteAt (chunk b k i) r = byteAt b (i * k + r) :=
  byteAt_extract b (by omega)

/-- The runs of a part that is cut at boundaries of runs. -/
theorem chunk_extract (b : ByteArray) {k m n i : Nat} (h : m + i < n) :
    chunk (b.extract (m * k) (n * k)) k i = chunk b k (m + i) := by
  have hend : m * k + (i * k + k) ≤ n * k := by
    calc m * k + (i * k + k) = (m + i + 1) * k := by ring
      _ ≤ n * k := Nat.mul_le_mul_right k h
  rw [chunk, chunk, ByteArray.extract_extract, Nat.min_eq_left hend, Nat.add_mul,
    ← Nat.add_assoc]

/-! ## Words -/

theorem u64_append_left {a b : ByteArray} {i : Nat} (h : i + 8 ≤ a.size) :
    u64 (a ++ b) i = u64 a i := by
  simp only [u64]
  rw [byteAt_append_left (by omega), byteAt_append_left (by omega), byteAt_append_left (by omega),
    byteAt_append_left (by omega), byteAt_append_left (by omega), byteAt_append_left (by omega),
    byteAt_append_left (by omega), byteAt_append_left (by omega)]

theorem u64_append_right {a : ByteArray} {k : Nat} (h : a.size = k) (b : ByteArray) (i : Nat) :
    u64 (a ++ b) (k + i) = u64 b i := by
  simp only [u64, Nat.add_assoc, byteAt_append_right h]

theorem u64_extract (b : ByteArray) {i j r : Nat} (h : i + r + 8 ≤ j) :
    u64 (b.extract i j) r = u64 b (i + r) := by
  simp only [u64]
  rw [byteAt_extract b (by omega), byteAt_extract b (by omega), byteAt_extract b (by omega),
    byteAt_extract b (by omega), byteAt_extract b (by omega), byteAt_extract b (by omega),
    byteAt_extract b (by omega), byteAt_extract b (by omega)]
  simp only [Nat.add_assoc]

/-- A word is read back where it was put. -/
theorem u64_ofU64_append (n : UInt64) (b : ByteArray) :
    u64 ((ofU64 n).toByteArray ++ b) 0 = n := by
  rw [u64_append_left (by rw [(ofU64 n).size_eq]), u64_ofU64]

/-! ## Words as numbers -/

theorem natOfDigits_cons (d : UInt8) (ds : List UInt8) :
    natOfDigits (d :: ds) = d.toNat + 256 * natOfDigits ds := rfl

theorem natOfDigits_lt (ds : List UInt8) : natOfDigits ds < 256 ^ ds.length := by
  induction ds with
  | nil => exact Nat.one_pos
  | cons d ds ih =>
    have hd := d.toNat_lt
    rw [natOfDigits_cons, List.length_cons, Nat.pow_succ]
    omega

/-- Digits are determined by their number and by what they stand for. -/
theorem natOfDigits_inj {ds es : List UInt8} (hlength : ds.length = es.length)
    (h : natOfDigits ds = natOfDigits es) : ds = es := by
  induction ds generalizing es with
  | nil => exact (List.length_eq_zero_iff.mp hlength.symm).symm
  | cons d ds ih =>
    cases es with
    | nil => cases hlength
    | cons e es =>
      have hd := d.toNat_lt
      have he := e.toNat_lt
      rw [natOfDigits_cons, natOfDigits_cons] at h
      rw [UInt8.toNat_inj.mp (by omega : d.toNat = e.toNat),
        ih (Nat.succ.inj hlength) (by omega)]

/-- The eight bytes of a word. -/
def wordDigits (b : ByteArray) (i : Nat) : List UInt8 :=
  (List.range 8).map fun r => byteAt b (i + r)

theorem length_wordDigits (b : ByteArray) (i : Nat) : (wordDigits b i).length = 8 := by
  rw [wordDigits, List.length_map, List.length_range]

theorem toNat_u64 (b : ByteArray) (i : Nat) : (u64 b i).toNat = natOfDigits (wordDigits b i) := by
  have hdigit : ∀ d : UInt8, UInt64.ofNat d.toNat = d.toUInt64 := fun d => by
    apply UInt64.toNat_inj.mp
    rw [UInt8.toNat_toUInt64, UInt64.toNat_ofNat_of_lt' (lt_trans d.toNat_lt (by decide))]
  have hcons : ∀ d ds, UInt64.ofNat (natOfDigits (d :: ds))
      = d.toUInt64 + 256 * UInt64.ofNat (natOfDigits ds) := fun d ds => by
    rw [natOfDigits_cons, UInt64.ofNat_add, UInt64.ofNat_mul, hdigit]
    rfl
  have hnil : UInt64.ofNat (natOfDigits []) = 0 := rfl
  have hword : u64 b i = UInt64.ofNat (natOfDigits (wordDigits b i)) := by
    have hdigits : wordDigits b i = [byteAt b i, byteAt b (i + 1), byteAt b (i + 2),
      byteAt b (i + 3), byteAt b (i + 4), byteAt b (i + 5), byteAt b (i + 6), byteAt b (i + 7)] := rfl
    simp only [hdigits, hcons, hnil, u64]
    grind
  have hlt := natOfDigits_lt (wordDigits b i)
  rw [length_wordDigits] at hlt
  rw [hword, UInt64.toNat_ofNat_of_lt' hlt]

/-- Eight bytes are determined by their word. -/
theorem eq_of_u64_eq {a b : ByteArray} (ha : a.size = 8) (hb : b.size = 8)
    (h : u64 a 0 = u64 b 0) : a = b := by
  have hdigits : wordDigits a 0 = wordDigits b 0 :=
    natOfDigits_inj rfl (by rw [← toNat_u64, ← toNat_u64, h])
  refine ext_byteAt (ha.trans hb.symm) fun r hr => ?_
  have := List.map_inj_left.mp hdigits r (List.mem_range.mpr (ha ▸ hr))
  rwa [Nat.zero_add] at this

/-- The word at a place is written as the bytes that stand there. -/
theorem ofU64_u64 {b : ByteArray} {i : Nat} (h : i + 8 ≤ b.size) :
    (ofU64 (u64 b i)).toByteArray = b.extract i (i + 8) := by
  refine eq_of_u64_eq (ofU64 _).size_eq ?_ ?_
  · rw [ByteArray.size_extract]
    omega
  · rw [u64_ofU64, u64_extract b (by omega)]
    rfl

/-- A word is told by its bytes. -/
theorem ofU64_inj {m n : UInt64} : ofU64 m = ofU64 n ↔ m = n := by
  constructor
  · intro h
    rw [← u64_ofU64 m, ← u64_ofU64 n, h]
  · rintro rfl
    rfl

theorem size_lengthPrefixed (b : ByteArray) : (lengthPrefixed b).size = 8 + b.size := by
  rw [lengthPrefixed, ByteArray.size_append, ByteVector.size_eq]

/-! ## Padding -/

/-- Padding is put behind. -/
theorem pad_eq_append (b : ByteArray) (x : UInt8) (n : Nat) : pad b x n = b ++ pad .empty x n := by
  induction n generalizing b with
  | zero => exact ByteArray.append_empty.symm
  | succ n ih =>
    rw [pad, pad, ih, ih (ByteArray.empty.push x), ← ByteArray.append_assoc]
    congr 1
    rw [← ByteArray.append_toByteArray_singleton, ← ByteArray.append_toByteArray_singleton,
      ByteArray.empty_append]

theorem pad_pad (b : ByteArray) (x : UInt8) (m n : Nat) :
    pad (pad b x m) x n = pad b x (m + n) := by
  induction m generalizing b with
  | zero => rw [Nat.zero_add]; rfl
  | succ m ih => rw [Nat.succ_add, pad, pad, ih]

/-- Zeros behind zeros. -/
theorem zeros_append (m n : Nat) : zeros m ++ zeros n = zeros (m + n) := by
  rw [zeros, zeros, zeros, ← pad_eq_append, pad_pad]

/-! ## Texts -/

/-- A text is determined by its bytes. -/
theorem ofString_inj {s t : String} : ofString s = ofString t ↔ s = t :=
  String.toByteArray_inj

end Trustless.Bytes
