import Mathlib.Tactic.Ring
import Trustless.Link.Basic
import Trustless.Proofs.Bytes
import Trustless.Proofs.Encoding.Base64

/-!
# Links to data

A link to data names its length by a mode and an index: the `index`-th of eight lengths, which are
multiples of the unit of the mode. The encoder takes the least mode whose lengths reach the size,
and within it the least index, so that the length always covers the size.

* `decode_aligned`: the data of a link lies within a sector, in pages of 4 KiB.
* `modeFor_reaches`, `modeFor_least`: the least mode whose lengths reach a size.
* `decode_encode`: the decoder reads back the length that the encoder chose.
* `bits_ofBits`, `root_ofBits`: a link keeps its bits and its root.
* `ofBytes_eq_ok_iff`: any 34 bytes are a link.
* `target_of_toData`, `target_toEntry`: what a link to data and one to an entry points at.
* `length_toText`, `size_toText`: how long the text of a link is.
-/

namespace Trustless

namespace Target

/-! ## What can be decoded -/

/-- The pages in which data is cut. -/
def page : Nat := 4096

theorem page_dvd_sizeUnit (mode : Nat) : page ∣ sizeUnit mode :=
  ⟨2 ^ (mode - 1), Nat.shiftLeft_eq ..⟩

theorem page_dvd_offsetUnit (mode : Nat) : page ∣ offsetUnit mode :=
  ⟨2 ^ mode, Nat.shiftLeft_eq ..⟩

/-- Above mode zero, the shortest length follows the eight lengths below it. -/
theorem sizeBase_eq {mode : Nat} (h : mode ≠ 0) : sizeBase mode = 8 * sizeUnit mode := by
  unfold sizeBase sizeUnit
  rw [if_neg h, Nat.shiftLeft_eq, Nat.shiftLeft_eq, ← Nat.mul_assoc]

theorem page_dvd_sizeBase (mode : Nat) : page ∣ sizeBase mode := by
  by_cases h : mode = 0
  · subst h
    exact Nat.dvd_zero page
  · rw [sizeBase_eq h]
    exact (page_dvd_sizeUnit mode).mul_left 8

theorem sizeUnit_pos (mode : Nat) : 0 < sizeUnit mode := by
  unfold sizeUnit
  rw [Nat.shiftLeft_eq]
  exact Nat.mul_pos (by decide) (Nat.two_pow_pos _)

theorem decodeData_aligned {bits offset size : Nat}
    (h : decodeData bits = .ok (.data offset size)) :
    page ∣ offset ∧ page ∣ size ∧ 0 < size ∧ offset + size ≤ Sector.size := by
  unfold decodeData at h
  dsimp only at h
  generalize trailingOnes (maxMode + 1) bits = mode at h
  by_cases hmode : mode > maxMode
  · rw [if_pos hmode] at h
    cases h
  · rw [if_neg hmode] at h
    generalize bits >>> (mode + 1) = rest at h
    by_cases hout : rest / 8 * offsetUnit mode
        + ((rest % 8 + 1) * sizeUnit mode + sizeBase mode) > Sector.size
    · rw [if_pos hout] at h
      cases h
    · rw [if_neg hout] at h
      cases h
      refine ⟨(page_dvd_offsetUnit mode).mul_left _, Nat.dvd_add
        ((page_dvd_sizeUnit mode).mul_left _) (page_dvd_sizeBase mode), ?_, Nat.le_of_not_lt hout⟩
      exact Nat.add_pos_left (Nat.mul_pos (Nat.succ_pos _) (sizeUnit_pos mode)) _

/-- **Decoded data lies in pages within its sector.** -/
theorem decode_aligned {raw offset size : Nat} (h : decode raw = .ok (.data offset size)) :
    page ∣ offset ∧ page ∣ size ∧ 0 < size ∧ offset + size ≤ Sector.size := by
  unfold decode at h
  by_cases hdata : raw % 4 = 0
  · rw [if_pos hdata] at h
    exact decodeData_aligned h
  · rw [if_neg hdata] at h
    by_cases hentry : raw = 1
    · rw [if_pos hentry] at h
      cases h
    · rw [if_neg hentry] at h
      cases h

/-! ## What is encoded -/

/-- The greatest length of a mode. -/
def greatest (mode : Nat) : Nat :=
  32768 <<< mode

theorem modeFor_succ (size tries mode : Nat) :
    modeFor size (tries + 1) mode
      = if greatest mode < size then modeFor size tries (mode + 1) else mode := rfl

theorem modeFor_le (size tries mode : Nat) : modeFor size tries mode ≤ mode + tries := by
  induction tries generalizing mode with
  | zero => exact le_rfl
  | succ tries ih =>
    rw [modeFor_succ]
    by_cases h : greatest mode < size
    · rw [if_pos h]
      have := ih (mode + 1)
      omega
    · rw [if_neg h]
      exact Nat.le_add_right _ _

/-- The lengths of the mode reach the size, if those of any mode do. -/
theorem modeFor_reaches {size tries mode : Nat} (h : size ≤ greatest (mode + tries)) :
    size ≤ greatest (modeFor size tries mode) := by
  induction tries generalizing mode with
  | zero => exact h
  | succ tries ih =>
    rw [modeFor_succ]
    by_cases hlow : greatest mode < size
    · rw [if_pos hlow]
      exact ih (by rwa [Nat.add_right_comm])
    · rw [if_neg hlow]
      exact Nat.le_of_not_lt hlow

/-- The lengths of the modes below it do not. -/
theorem modeFor_least {size tries mode low : Nat} (hlow : mode ≤ low)
    (h : low < modeFor size tries mode) : greatest low < size := by
  induction tries generalizing mode with
  | zero => exact absurd h (Nat.not_lt_of_le hlow)
  | succ tries ih =>
    rw [modeFor_succ] at h
    by_cases hmode : greatest mode < size
    · rw [if_pos hmode] at h
      rcases hlow.lt_or_eq with hlt | rfl
      · exact ih hlt h
      · exact hmode
    · rw [if_neg hmode] at h
      exact absurd h (Nat.not_lt_of_le hlow)

/-- The mode of a size is the least one whose lengths reach it. -/
structure ModeOf (size mode : Nat) : Prop where
  le_max : mode ≤ maxMode
  reaches : size ≤ greatest mode
  least : ∀ low < mode, greatest low < size

theorem modeOf_modeFor {size : Nat} (h : size ≤ Sector.size) :
    ModeOf size (modeFor size maxMode 0) where
  le_max := (modeFor_le size maxMode 0).trans (Nat.zero_add maxMode).le
  reaches := modeFor_reaches h
  least low := modeFor_least low.zero_le

/-- What lies below the lengths of the mode does not reach the size. -/
theorem ModeOf.sizeBase_le {size mode : Nat} (h : ModeOf size mode) : sizeBase mode ≤ size := by
  cases mode with
  | zero => exact Nat.zero_le size
  | succ mode => exact (h.least mode mode.lt_succ_self).le

/-- The bits of a length at the start of a sector. -/
def lengthBits (mode index : Nat) : Nat :=
  ((index <<< (mode + 1)) + ((1 <<< mode) - 1)) * 4

/-- The `index`-th length of a mode. -/
def length (mode index : Nat) : Nat :=
  (index + 1) * sizeUnit mode + sizeBase mode

/-- Every length of every mode is decoded from its bits. -/
theorem decode_lengthBits :
    ∀ mode, mode ≤ maxMode → ∀ index, index < 8 →
      lengthBits mode index < 65536 ∧
        decode (lengthBits mode index) = .ok (.data 0 (length mode index)) := by
  decide

theorem greatest_eq (mode : Nat) : greatest mode = length mode 7 := by
  unfold length greatest
  cases mode with
  | zero => rfl
  | succ mode =>
    rw [sizeBase_eq (Nat.succ_ne_zero mode), sizeUnit, Nat.shiftLeft_eq, Nat.shiftLeft_eq,
      Nat.add_sub_cancel]
    ring

/-- The eight lengths of a mode follow each other, so that one of them covers a size. -/
theorem le_length (size mode : Nat) :
    size ≤ length mode ((size - sizeBase mode - 1) / sizeUnit mode) := by
  have h := Nat.lt_div_mul_add (a := size - sizeBase mode - 1) (sizeUnit_pos mode)
  rw [length, Nat.add_mul, Nat.one_mul]
  omega

theorem ModeOf.index_lt {size mode : Nat} (h : ModeOf size mode) :
    (size - sizeBase mode - 1) / sizeUnit mode < 8 := by
  have hreaches := h.reaches
  have hunit := sizeUnit_pos mode
  rw [greatest_eq, length] at hreaches
  rw [Nat.div_lt_iff_lt_mul hunit]
  omega

/-- What is encoded are the bits of the first length of a mode that covers the size. -/
theorem exists_encode {size : Nat} (h : size ≤ Sector.size) :
    ∃ mode, ModeOf size mode ∧
      encode size = .ok (lengthBits mode ((size - sizeBase mode - 1) / sizeUnit mode)) := by
  refine ⟨_, modeOf_modeFor h, ?_⟩
  rw [encode, if_neg (Nat.not_lt_of_le h)]
  rfl

/-- **The decoder reads back the length that the encoder chose**, and it covers the size. -/
theorem decode_encode {size : Nat} (h : size ≤ Sector.size) :
    ∃ bits covered, encode size = .ok bits ∧ bits < 65536 ∧
      decode bits = .ok (.data 0 covered) ∧ size ≤ covered := by
  obtain ⟨mode, hmode, hencode⟩ := exists_encode h
  obtain ⟨hbits, hdecode⟩ := decode_lengthBits mode hmode.le_max _ hmode.index_lt
  exact ⟨_, _, hencode, hbits, hdecode, le_length size mode⟩

end Target

namespace Link

variable {bits size : Nat} {root : Digest} {link : Link}

theorem toByteArray_ofBits (bits : Nat) (root : Digest) :
    (ofBits bits root).bytes.toByteArray
      = (Bytes.ofNat 2 bits).toByteArray ++ root.toByteArray := rfl

theorem bits_ofBits (h : bits < 65536) (root : Digest) : (ofBits bits root).bits = bits := by
  have hsize := (Bytes.ofNat 2 bits).size_eq
  have h0 : Bytes.byteAt (Bytes.ofNat 2 bits).toByteArray 0 = bits.toUInt8 := rfl
  have h1 : Bytes.byteAt (Bytes.ofNat 2 bits).toByteArray 1 = (bits / 256).toUInt8 := rfl
  rw [Link.bits, toByteArray_ofBits, Bytes.byteAt_append_left (by omega),
    Bytes.byteAt_append_left (by omega), h0, h1, Nat.toUInt8_eq, Nat.toUInt8_eq,
    UInt8.toNat_ofNat', UInt8.toNat_ofNat']
  omega

theorem root_ofBits (bits : Nat) (root : Digest) : (ofBits bits root).root = root := by
  refine ByteVector.ext ?_
  show (ofBits bits root).bytes.toByteArray.extract 2 34 = root.toByteArray
  rw [toByteArray_ofBits]
  have h := ByteArray.extract_append_eq_right (a := (Bytes.ofNat 2 bits).toByteArray)
    (b := root.toByteArray) (i := 2) (j := 34)
  rw [h (Bytes.ofNat 2 bits).size_eq.symm (by rw [(Bytes.ofNat 2 bits).size_eq, root.size_eq])]

theorem isValid_iff : link.isValid = true ↔ ∃ t, link.target = .ok t := by
  rw [isValid]
  cases link.target with
  | error e => exact ⟨nofun, nofun⟩
  | ok t => exact ⟨fun _ => ⟨t, rfl⟩, fun _ => rfl⟩

/-- A link to an entry points at an entry. -/
theorem target_toEntry (entry : Digest) : (toEntry entry).target = .ok .entry := by
  rw [target, toEntry, bits_ofBits (by decide)]
  rfl

/-- A link to an entry asks for its name. -/
theorem root_toEntry (entry : Digest) : (toEntry entry).root = entry :=
  root_ofBits 1 entry

theorem ofBytes_eq_ok_iff {b : ByteArray} :
    ofBytes b = .ok link ↔ link.bytes.toByteArray = b := by
  unfold ofBytes
  rw [← ByteVector.ofByteArray?_eq_some_iff]
  cases ByteVector.ofByteArray? 34 b with
  | none => exact ⟨nofun, nofun⟩
  | some v =>
    rw [Except.ok.injEq, Option.some.injEq]
    exact ⟨fun h => h ▸ rfl, fun h => by rw [h]⟩

theorem ofBytes_eq_error_iff {b : ByteArray} {e : LinkError} :
    ofBytes b = .error e ↔ b.size ≠ 34 ∧ e = .wrongLength b.size := by
  unfold ofBytes ByteVector.ofByteArray?
  by_cases h : b.size = 34
  · rw [dif_pos h]
    exact ⟨nofun, fun he => absurd h he.1⟩
  · rw [dif_neg h]
    exact ⟨fun he => ⟨h, (Except.error.inj he).symm⟩, fun he => by rw [he.2]⟩

/-- What fits into a sector can be linked to. -/
theorem exists_toData (h : size ≤ Sector.size) (root : Digest) :
    ∃ link, toData size root = .ok link := by
  obtain ⟨bits, covered, hencode, -⟩ := Target.decode_encode h
  refine ⟨ofBits bits root, ?_⟩
  rw [toData, hencode]
  rfl

/-- **What a link to data points at**: the given root, and at least the given bytes at the start of
its sector. -/
theorem target_of_toData (h : toData size root = .ok link) :
    ∃ covered, link.target = .ok (.data 0 covered) ∧ size ≤ covered ∧ link.root = root := by
  by_cases hsize : size ≤ Sector.size
  · obtain ⟨bits, covered, hencode, hbits, hdecode, hcovered⟩ := Target.decode_encode hsize
    rw [toData, hencode] at h
    obtain rfl := Except.ok.inj h
    exact ⟨covered, by rw [target, bits_ofBits hbits, hdecode], hcovered, root_ofBits bits root⟩
  · rw [toData, Target.encode, if_pos (Nat.lt_of_not_le hsize)] at h
    cases h

/-- Every link has a text of 46 letters. -/
theorem length_toText (l : Link) : l.toText.length = 46 := by
  rw [toText, Base64.length_encode, l.bytes.size_eq]

theorem size_toText (l : Link) : (Bytes.ofString l.toText).size = 46 := by
  show (Base64.encode l.bytes.toByteArray).utf8ByteSize = 46
  rw [Base64.utf8ByteSize_encode]
  exact l.length_toText

end Link

end Trustless
