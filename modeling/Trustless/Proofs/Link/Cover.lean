import Mathlib.Order.Bounds.Basic
import Trustless.Proofs.Guarded.Link

/-!
# The link that covers a size

The lengths that data at the start of a sector can have are the eight lengths of each mode, and those
of a mode lie above all of the mode below. The encoder takes the least one that covers the size. What
the decoder reads as one of them is nothing but its bits, so that a link is built again from what it
points at and from its root.

* `eq_of_trailingOnes`: a number is put together from its lowest run of ones and from the rest.
* `decode_eq_data`: which bits are read as data at the start of a sector.
* `length_le_length`: the order of the lengths.
* `encode_eq_ok_iff`: the encoder finds the least length that covers a size.
* `ofBits_bits`: a link is its bits and its root.
* `toData_least_cover`: all of it, for links.
-/

namespace Trustless

namespace Target

variable {size mode index : Nat}

/-! ## What the decoder reads -/

/-- A number is its lowest run of ones, a zero in front of it, and the rest. -/
theorem eq_of_trailingOnes {tries n : Nat} (h : trailingOnes tries n < tries) :
    n = n >>> (trailingOnes tries n + 1) <<< (trailingOnes tries n + 1)
      + (1 <<< trailingOnes tries n - 1) := by
  induction tries generalizing n with
  | zero => cases h
  | succ tries ih =>
    rw [trailingOnes] at h ⊢
    split
    · rename_i hodd
      rw [if_pos hodd] at h
      have hhalf := ih (n := n / 2) (by omega)
      generalize trailingOnes tries (n / 2) = ones at hhalf
      simp only [Nat.shiftRight_eq_div_pow, Nat.shiftLeft_eq, Nat.one_mul] at hhalf ⊢
      have hpos := Nat.two_pow_pos ones
      have hnext : 2 * 2 ^ (ones + 1) = 2 ^ (ones + 1 + 1) := Nat.pow_succ'.symm
      rw [Nat.div_div_eq_div_mul, hnext] at hhalf
      have hdouble : 2 ^ (ones + 1) = 2 * 2 ^ ones := Nat.pow_succ'
      have hrest : n / 2 ^ (ones + 1 + 1) * 2 ^ (ones + 1 + 1)
          = 2 * (n / 2 ^ (ones + 1 + 1) * 2 ^ (ones + 1)) := by
        rw [Nat.pow_succ 2 (ones + 1)]
        ring
      omega
    · simp only [Nat.shiftRight_eq_div_pow, Nat.shiftLeft_eq]
      omega

theorem offsetUnit_pos (mode : Nat) : 0 < offsetUnit mode := by
  simp [offsetUnit, Nat.shiftLeft_eq]

/-- Data at the start of a sector is read from the bits of its length alone. -/
theorem decode_eq_data {raw : Nat} (h : decode raw = .ok (.data 0 size)) :
    ∃ mode, mode ≤ maxMode ∧ ∃ index, index < 8 ∧
      raw = lengthBits mode index ∧ size = length mode index := by
  unfold decode at h
  split at h
  · rename_i hversion
    unfold decodeData at h
    dsimp only at h
    split at h
    · cases h
    · rename_i hmode
      have hones := eq_of_trailingOnes (n := raw / 4) (Nat.lt_succ_of_le (Nat.le_of_not_lt hmode))
      generalize trailingOnes (maxMode + 1) (raw / 4) = mode at h hmode hones
      generalize (raw / 4) >>> (mode + 1) = rest at h hones
      split at h
      · cases h
      · -- An offset of zero leaves nothing in front of the three bits of the length.
        obtain ⟨hoffset, hsize⟩ := Target.data.inj (Except.ok.inj h)
        have hrest : rest / 8 = 0 :=
          (Nat.mul_eq_zero.mp hoffset).resolve_right (offsetUnit_pos mode).ne'
        refine ⟨mode, Nat.le_of_not_lt hmode, rest, by omega, ?_, ?_⟩
        · rw [lengthBits, ← hones]
          omega
        · rw [length, ← hsize, Nat.mod_eq_of_lt (by omega)]
  · split at h <;> cases h

/-! ## The order of the lengths -/

theorem length_le_greatest (h : index < 8) : length mode index ≤ greatest mode := by
  rw [greatest_eq, length, length]
  exact Nat.add_le_add_right (Nat.mul_le_mul_right _ (Nat.succ_le_succ (Nat.le_of_lt_succ h))) _

theorem greatest_le_greatest {mode' : Nat} (h : mode ≤ mode') : greatest mode ≤ greatest mode' := by
  simp only [greatest, Nat.shiftLeft_eq]
  exact Nat.mul_le_mul_left _ (Nat.pow_le_pow_right (by decide) h)

/-- The lengths of a mode lie above those of the mode below it. -/
theorem greatest_lt_length (mode index : Nat) : greatest mode < length (mode + 1) index := by
  have hbase : sizeBase (mode + 1) = greatest mode := rfl
  have hunit := sizeUnit_pos (mode + 1)
  have hindex : sizeUnit (mode + 1) ≤ (index + 1) * sizeUnit (mode + 1) :=
    Nat.le_mul_of_pos_left _ index.succ_pos
  rw [length, hbase]
  omega

/-- **The length that the encoder takes is no longer than any other that covers the size.** -/
theorem length_le_length {mode' index' : Nat} (hmode : ModeOf size mode) (hindex' : index' < 8)
    (hcovers : size ≤ length mode' index') :
    length mode ((size - sizeBase mode - 1) / sizeUnit mode) ≤ length mode' index' := by
  rcases Nat.lt_trichotomy mode mode' with hbelow | rfl | habove
  · -- All lengths of a mode above are longer.
    obtain ⟨low, rfl⟩ := Nat.exists_eq_add_of_lt hbelow
    calc length mode _ ≤ greatest mode := length_le_greatest hmode.index_lt
      _ ≤ greatest (mode + low) := greatest_le_greatest (Nat.le_add_right _ _)
      _ ≤ length (mode + low + 1) index' := (greatest_lt_length _ _).le
  · -- In one mode, a length with a smaller number ends before the size.
    have hle : (size - sizeBase mode - 1) / sizeUnit mode ≤ index' := by
      rw [length] at hcovers
      refine Nat.lt_add_one_iff.mp ((Nat.div_lt_iff_lt_mul (sizeUnit_pos mode)).mpr ?_)
      have hunit := sizeUnit_pos mode
      have hsucc : (index' + 1) * sizeUnit mode = index' * sizeUnit mode + sizeUnit mode := by ring
      omega
    exact Nat.add_le_add_right (Nat.mul_le_mul_right _ (Nat.succ_le_succ hle)) _
  · -- No length of a mode below covers the size.
    have hshort := hmode.least mode' habove
    have hgreatest : length mode' index' ≤ greatest mode' := length_le_greatest hindex'
    omega

/-! ## The encoder -/

/-- The lengths that data at the start of a sector can have. -/
def lengths : Set Nat :=
  {n | ∃ raw, decode raw = .ok (.data 0 n)}

/-- The encoder takes the least length that covers a size. -/
theorem isLeast_encode (h : size ≤ Sector.size) :
    ∃ bits covered, encode size = .ok bits ∧ decode bits = .ok (.data 0 covered) ∧
      IsLeast {n | size ≤ n ∧ n ∈ lengths} covered := by
  obtain ⟨mode, hmode, hencode⟩ := exists_encode h
  obtain ⟨-, hdecode⟩ := decode_lengthBits mode hmode.le_max _ hmode.index_lt
  refine ⟨_, _, hencode, hdecode, ⟨le_length size mode, _, hdecode⟩, ?_⟩
  rintro n ⟨hcovers, raw, hraw⟩
  obtain ⟨mode', -, index', hindex', -, rfl⟩ := decode_eq_data hraw
  exact length_le_length hmode hindex' hcovers

/-- Every length is encoded as its bits. -/
theorem encode_length :
    ∀ mode, mode ≤ maxMode → ∀ index, index < 8 →
      encode (length mode index) = .ok (lengthBits mode index) := by
  decide

/-- What is read as data at the start of a sector is what its length is encoded as. -/
theorem encode_of_decode {raw : Nat} (h : decode raw = .ok (.data 0 size)) :
    encode size = .ok raw := by
  obtain ⟨mode, hmode, index, hindex, rfl, rfl⟩ := decode_eq_data h
  exact encode_length mode hmode index hindex

/-- **The encoder answers with the bits of the least length that covers the size.** -/
theorem encode_eq_ok_iff {bits : Nat} : encode size = .ok bits ↔
    ∃ covered, decode bits = .ok (.data 0 covered) ∧
      IsLeast {n | size ≤ n ∧ n ∈ lengths} covered := by
  constructor
  · intro h
    by_cases hsize : size ≤ Sector.size
    · obtain ⟨bits', covered, hencode, hdecode, hleast⟩ := isLeast_encode hsize
      obtain rfl := Except.ok.inj (h.symm.trans hencode)
      exact ⟨covered, hdecode, hleast⟩
    · rw [encode, if_pos (Nat.lt_of_not_le hsize)] at h
      cases h
  · rintro ⟨covered, hdecode, hleast⟩
    obtain ⟨-, -, -, hsector⟩ := decode_aligned hdecode
    have hsize : size ≤ Sector.size := hleast.1.1.trans (by omega)
    obtain ⟨bits', covered', hencode, hdecode', hleast'⟩ := isLeast_encode hsize
    obtain rfl := hleast.unique hleast'
    rw [hencode, ← encode_of_decode hdecode, encode_of_decode hdecode']

theorem lt_of_encode {bits : Nat} (h : encode size = .ok bits) : bits < 65536 := by
  obtain ⟨covered, hdecode, -⟩ := encode_eq_ok_iff.mp h
  obtain ⟨mode, hmode, index, hindex, rfl, -⟩ := decode_eq_data hdecode
  exact (decode_lengthBits mode hmode index hindex).1

theorem encode_eq_error_iff {e : LinkError} :
    encode size = .error e ↔ Sector.size < size ∧ e = .dataTooLarge size := by
  unfold encode
  split
  · rename_i hsize
    simp [hsize, eq_comm]
  · rename_i hsize
    simp [hsize]

end Target

namespace Link

variable {size : Nat} {root : Digest} {l : Link}

/-! ## Links -/

/-- The sixteen bits are the first two bytes. -/
theorem ofNat_bits (l : Link) :
    (Bytes.ofNat 2 l.bits).toByteArray = l.bytes.toByteArray.extract 0 2 := by
  have hsize := l.bytes.size_eq
  have hfirst : Bytes.byteAt (Bytes.ofNat 2 l.bits).toByteArray 0 = l.bits.toUInt8 := rfl
  have hsecond : Bytes.byteAt (Bytes.ofNat 2 l.bits).toByteArray 1 = (l.bits / 256).toUInt8 := rfl
  refine Bytes.ext_byteAt (by simp [ByteVector.size_eq, hsize]) fun i hi => ?_
  rw [ByteVector.size_eq] at hi
  rw [Bytes.byteAt_extract _ (by omega), Nat.zero_add]
  have hlow := (Bytes.byteAt l.bytes.toByteArray 0).toNat_lt
  have hhigh := (Bytes.byteAt l.bytes.toByteArray 1).toNat_lt
  apply UInt8.toNat_inj.mp
  obtain rfl | rfl : i = 0 ∨ i = 1 := by omega
  · rw [hfirst, bits, Nat.toUInt8_eq, UInt8.toNat_ofNat']
    omega
  · rw [hsecond, bits, Nat.toUInt8_eq, UInt8.toNat_ofNat']
    omega

/-- **A link is its bits and its root.** -/
theorem ofBits_bits (l : Link) : ofBits l.bits l.root = l := by
  have hbytes : (ofBits l.bits l.root).bytes = l.bytes := by
    refine ByteVector.ext ?_
    rw [toByteArray_ofBits, ofNat_bits]
    show l.bytes.toByteArray.extract 0 2 ++ l.bytes.toByteArray.extract 2 34 = _
    rw [← ByteArray.extract_eq_extract_append_extract _ (by decide) (by decide)]
    simp [← l.bytes.size_eq]
  cases l
  exact congrArg mk hbytes

/-- Which link is built: the one with the bits that were encoded and with the given root. -/
theorem toData_eq_ok_iff :
    toData size root = .ok l ↔ Target.encode size = .ok l.bits ∧ l.root = root := by
  constructor
  · intro h
    rw [toData] at h
    cases hencode : Target.encode size with
    | error e => simp [hencode, Except.map] at h
    | ok bits =>
      rw [hencode] at h
      obtain rfl := Except.ok.inj h
      rw [bits_ofBits (Target.lt_of_encode hencode)]
      exact ⟨rfl, root_ofBits bits root⟩
  · rintro ⟨h, rfl⟩
    rw [toData, h]
    exact congrArg Except.ok (ofBits_bits l)

theorem toData_eq_error_iff {e : LinkError} :
    toData size root = .error e ↔ Sector.size < size ∧ e = .dataTooLarge size := by
  rw [← Target.encode_eq_error_iff, toData]
  cases Target.encode size <;> simp [Except.map]

theorem exists_toData_iff : (∃ l, toData size root = .ok l) ↔ size ≤ Sector.size := by
  refine ⟨fun ⟨l, hl⟩ => Nat.le_of_not_lt fun hlarge => ?_, fun h => exists_toData h root⟩
  have herror : toData size root = .error (.dataTooLarge size) :=
    toData_eq_error_iff.mpr ⟨hlarge, rfl⟩
  cases hl.symm.trans herror

/-- What links to data at the start of a sector point at. -/
theorem mem_lengths_iff {n : Nat} :
    n ∈ Target.lengths ↔ ∃ l : Link, l.target = .ok (.data 0 n) := by
  constructor
  · rintro ⟨raw, hraw⟩
    refine ⟨ofBits raw (.zero 32), ?_⟩
    rw [target, bits_ofBits (Target.lt_of_encode (Target.encode_of_decode hraw)), hraw]
  · rintro ⟨l, hl⟩
    exact ⟨l.bits, hl⟩

/-- What building a link to data comes to. -/
structure ToDataOutcome (size : Nat) (root : Digest) : Prop where
  /-- What fits into a sector can be linked to. -/
  built : (∃ l, toData size root = .ok l) ↔ size ≤ Sector.size
  /-- All else is refused, with its size. -/
  refused : ∀ e, toData size root = .error e ↔ Sector.size < size ∧ e = .dataTooLarge size
  /-- The link has the root, and no link to data at the start of a sector covers the size more
  closely. -/
  least : ∀ l, toData size root = .ok l ↔ l.root = root ∧
    ∃ covered, l.target = .ok (.data 0 covered) ∧
      IsLeast {n | size ≤ n ∧ ∃ l' : Link, l'.target = .ok (.data 0 n)} covered
  /-- The link has all bits that were encoded. -/
  kept : ∀ l, toData size root = .ok l ↔ Target.encode size = .ok l.bits ∧ l.root = root
  /-- In words, nothing is shifted out, and nothing is lost when sixteen bits are kept. -/
  words : Guarded.encode size = Guarded.of (Target.encode size)

/-- **Links to data are the least covers of sizes.** For every size and root, a link is built unless
the size is larger than a sector, and it is the one with that root and with the least length at the
start of a sector that covers the size; it is computed in words without losing a bit. What a link to
data points at lies in pages of 4 KiB within its sector, and a link to data at the start of a sector is
built again from its length and its root. -/
theorem toData_least_cover :
    (∀ (size : Nat) (root : Digest), ToDataOutcome size root) ∧
    ∀ (l : Link) (offset size : Nat), l.target = .ok (.data offset size) →
      4096 ∣ offset ∧ 4096 ∣ size ∧ 4096 ≤ size ∧ offset + size ≤ Sector.size ∧
        (offset = 0 → toData size l.root = .ok l) := by
  refine ⟨fun size root => ⟨exists_toData_iff, fun e => toData_eq_error_iff, fun l => ?_,
    fun l => toData_eq_ok_iff, Guarded.encode_eq size⟩, fun l offset size htarget => ?_⟩
  · rw [toData_eq_ok_iff, Target.encode_eq_ok_iff, and_comm]
    simp only [mem_lengths_iff]
    rfl
  · obtain ⟨hoffset, hsize, hpos, hsector⟩ := Target.decode_aligned htarget
    refine ⟨hoffset, hsize, Nat.le_of_dvd hpos hsize, hsector, ?_⟩
    rintro rfl
    exact toData_eq_ok_iff.mpr ⟨Target.encode_of_decode htarget, rfl⟩

end Link

end Trustless
