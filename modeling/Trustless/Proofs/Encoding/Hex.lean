import Trustless.Encoding.Hex

/-!
# Bytes are read back from hex

A hex text has two UTF-8 bytes for every byte it stands for, so it passes the check of its length,
and its digits are read back in pairs. The case of the letters is nothing to the reader.

* `decode_encode`: reading gives back the bytes that were written; `decodeVector_toHex` for a known
  number of bytes.
* `Spells`, `decode_eq_ok_iff`: all texts that are read as given bytes.
-/

namespace Trustless.Hex

theorem utf8Size_digit {n : Nat} (h : n < 16) : (digit n).utf8Size = 1 := by
  revert n
  decide

theorem encodeList_cons (b : UInt8) (bs : List UInt8) : encodeList (b :: bs)
    = digit (b.toNat / 16) :: digit (b.toNat % 16) :: encodeList bs :=
  rfl

theorem utf8ByteSize_encodeList (bs : List UInt8) :
    (String.ofList (encodeList bs)).utf8ByteSize = 2 * bs.length := by
  induction bs with
  | nil => rfl
  | cons b bs ih =>
    have hb := b.toNat_lt
    rw [encodeList_cons, String.ofList_cons, String.ofList_cons, String.utf8ByteSize_append,
      String.utf8ByteSize_append, String.utf8ByteSize_singleton, String.utf8ByteSize_singleton,
      utf8Size_digit (by omega), utf8Size_digit (by omega), ih, List.length_cons]
    omega

/-- **Bytes are read back from hex.** -/
theorem decode_encode (b : ByteArray) : decode (encode b) = .ok b := by
  unfold decode encode
  rw [utf8ByteSize_encodeList, if_neg (by omega), String.toList_ofList, decodeChars_encodeList]

theorem decodeVector_toHex {n : Nat} (v : ByteVector n) : decodeVector n v.toHex = .ok v := by
  unfold decodeVector ByteVector.toHex
  rw [decode_encode]
  dsimp only [bind, Except.bind]
  rw [ByteVector.ofByteArray?_toByteArray]

/-! ## Letters of either case -/

variable {c : Char} {cs : List Char} {bs : List UInt8} {n : Nat}

/-- The digits of a range have consecutive values. -/
theorem toLower_of_le {first last : Char} {value : Nat} (hfirst : first ≤ c) (hlast : c ≤ last)
    (hrange : ∀ i, i ≤ last.toNat - first.toNat →
      i + value < 16 ∧ (Char.ofNat (first.toNat + i)).toLower = digit (i + value)) :
    c.toNat - first.toNat + value < 16 ∧ c.toLower = digit (c.toNat - first.toNat + value) := by
  have hle : first.toNat ≤ c.toNat := hfirst
  have hge : c.toNat ≤ last.toNat := hlast
  obtain ⟨hlt, hdigit⟩ := hrange (c.toNat - first.toNat) (by omega)
  rw [Nat.add_sub_cancel' hle, Char.ofNat_toNat] at hdigit
  exact ⟨hlt, hdigit⟩

/-- The case of a character is nothing to its value. -/
theorem digitValue?_toLower (c : Char) : digitValue? c.toLower = digitValue? c := by
  have hupper : ∀ i, i ≤ 'Z'.toNat - 'A'.toNat →
      digitValue? (Char.ofNat ('A'.toNat + i)).toLower = digitValue? (Char.ofNat ('A'.toNat + i)) := by
    decide
  by_cases h : c.val ≥ 'A'.val ∧ c.val ≤ 'Z'.val
  · have hle : 'A'.toNat ≤ c.toNat := h.1
    have hge : c.toNat ≤ 'Z'.toNat := h.2
    have hvalue := hupper (c.toNat - 'A'.toNat) (by omega)
    rwa [Nat.add_sub_cancel' hle, Char.ofNat_toNat] at hvalue
  · have hsame : c.toLower = c := dif_neg h
    rw [hsame]

theorem utf8Size_toLower (c : Char) : c.toLower.utf8Size = c.utf8Size := by
  by_cases h : c.val ≥ 'A'.val ∧ c.val ≤ 'Z'.val
  · have hle : c.val.toNat ≤ 'Z'.toNat := h.2
    have hlower : c.toLower.val = c.val + 32 := congrArg Char.val (dif_pos h)
    have hascii : c.val ≤ 127 := UInt32.le_trans h.2 (by decide)
    have hascii' : c.toLower.val ≤ 127 := by
      rw [hlower, UInt32.le_iff_toNat_le, UInt32.toNat_add]
      exact Nat.le_trans (Nat.mod_le _ _) (Nat.le_trans (Nat.add_le_add_right hle 32) (by decide))
    rw [Char.utf8Size_eq_one_iff.mpr hascii, Char.utf8Size_eq_one_iff.mpr hascii']
  · have hsame : c.toLower = c := dif_neg h
    rw [hsame]

theorem utf8ByteSize_map_toLower (cs : List Char) :
    (String.ofList (cs.map Char.toLower)).utf8ByteSize = (String.ofList cs).utf8ByteSize := by
  induction cs with
  | nil => rfl
  | cons c cs ih =>
    rw [List.map_cons, String.ofList_cons, String.ofList_cons, String.utf8ByteSize_append,
      String.utf8ByteSize_append, String.utf8ByteSize_singleton, String.utf8ByteSize_singleton,
      utf8Size_toLower, ih]

/-- **The characters with a value are its digit, in either case.** -/
theorem digitValue?_eq_some_iff : digitValue? c = some n ↔ n < 16 ∧ c.toLower = digit n := by
  constructor
  · intro h
    unfold digitValue? at h
    split at h
    · rename_i hc
      obtain rfl := Option.some.inj h
      rw [← Nat.add_zero (c.toNat - '0'.toNat)]
      exact toLower_of_le hc.1 hc.2 (by decide)
    split at h
    · rename_i hc
      obtain rfl := Option.some.inj h
      exact toLower_of_le hc.1 hc.2 (by decide)
    split at h
    · rename_i hc
      obtain rfl := Option.some.inj h
      exact toLower_of_le hc.1 hc.2 (by decide)
    · cases h
  · rintro ⟨hn, hc⟩
    rw [← digitValue?_toLower, hc, digitValue?_digit hn]

theorem decodeChars_map_toLower : ∀ cs : List Char,
    decodeChars (cs.map Char.toLower) = decodeChars cs
  | [] => rfl
  | [_] => rfl
  | c :: d :: cs => by
    simp only [List.map_cons, decodeChars, digitValue?_toLower, decodeChars_map_toLower cs]

theorem map_toLower_of_decodeChars : ∀ {cs : List Char} {bs : List UInt8},
    decodeChars cs = some bs → cs.map Char.toLower = encodeList bs
  | [], bs, h => by
    obtain rfl := Option.some.inj h
    rfl
  | [c], bs, h => by cases h
  | c :: d :: cs, bs, h => by
    rw [decodeChars] at h
    split at h
    · rename_i x y rest hc hd hrest
      obtain rfl := Option.some.inj h
      obtain ⟨hx, hcx⟩ := digitValue?_eq_some_iff.mp hc
      obtain ⟨hy, hdy⟩ := digitValue?_eq_some_iff.mp hd
      have hbyte : (UInt8.ofNat (16 * x + y)).toNat = 16 * x + y :=
        UInt8.toNat_ofNat_of_lt' (by show _ < 256; omega)
      rw [List.map_cons, List.map_cons, map_toLower_of_decodeChars hrest, hcx, hdy, encodeList_cons,
        hbyte, show (16 * x + y) / 16 = x by omega, show (16 * x + y) % 16 = y by omega]
    · cases h

/-- **Digits are read as bytes exactly if they are the hex of these bytes, in letters of either
case.** -/
theorem decodeChars_eq_some_iff :
    decodeChars cs = some bs ↔ cs.map Char.toLower = encodeList bs := by
  refine ⟨map_toLower_of_decodeChars, fun h => ?_⟩
  rw [← decodeChars_map_toLower, h, decodeChars_encodeList]

/-- A text is the hex of bytes, in letters of either case. -/
def Spells (s : String) (b : ByteArray) : Prop :=
  s.toList.map Char.toLower = encodeList b.data.toList

instance (s : String) (b : ByteArray) : Decidable (Spells s b) :=
  inferInstanceAs (Decidable (_ = _))

/-- **A text is read as bytes exactly if it spells them.** -/
theorem decode_eq_ok_iff {s : String} {b : ByteArray} : decode s = .ok b ↔ Spells s b := by
  unfold decode Spells
  constructor
  · intro h
    split at h
    · cases h
    split at h
    · rename_i bs hbs
      cases h
      exact decodeChars_eq_some_iff.mp hbs
    · cases h
  · intro h
    have hsize := utf8ByteSize_map_toLower s.toList
    rw [h, utf8ByteSize_encodeList, String.ofList_toList] at hsize
    rw [← hsize, if_neg (by omega), decodeChars_eq_some_iff.mpr h]

theorem spells_encode (b : ByteArray) : Spells (encode b) b :=
  decode_eq_ok_iff.mp (decode_encode b)

end Trustless.Hex
