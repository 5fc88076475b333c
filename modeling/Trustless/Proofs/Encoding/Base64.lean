import Mathlib.Data.List.TakeWhile
import Trustless.Encoding.Base64

/-!
# Bytes are read back from base64

What is written has no padding, and its letters are those of the URL-safe alphabet. A reader that
takes both alphabets and any part of the padding reads it back.

* `length_encode`, `utf8ByteSize_encode`: how long a text is, in letters and in bytes.
* `lt_of_mem_toSextets`: the groups of bits are those that have a letter.
* `decode_encode`: reading gives back the bytes that were written.
-/

namespace Trustless.Base64

/-- No letter is taken for padding. -/
theorem letter_ne_padding {n : Nat} (h : n < 64) : letter n ≠ '=' := by
  intro heq
  have hvalue := letterValue?_letter h
  rw [heq] at hvalue
  cases hvalue

/-- The values of letters are read back. -/
theorem mapM_letterValue? {ns : List Nat} (h : ∀ n ∈ ns, n < 64) :
    (ns.map letter).mapM letterValue? = some ns := by
  induction ns with
  | nil => rfl
  | cons n ns ih =>
    obtain ⟨hn, hns⟩ := List.forall_mem_cons.mp h
    rw [List.map_cons, List.mapM_cons, letterValue?_letter hn, ih hns]
    rfl

/-- There are as many groups of six bits as it takes to hold all bits. -/
theorem length_toSextets (bs : List UInt8) :
    (toSextets bs).length = (4 * bs.length + 2) / 3 := by
  induction bs using toSextets.induct with
  | case1 a b c r ih =>
    simp only [toSextets, List.length_cons, ih]
    omega
  | case2 a b => simp only [toSextets, List.length_cons, List.length_nil]
  | case3 a => simp only [toSextets, List.length_cons, List.length_nil]
  | case4 => rfl

/-- The text of bytes has a letter for every group. -/
theorem length_encode (b : ByteArray) : (encode b).length = (4 * b.size + 2) / 3 := by
  rw [encode, String.length_ofList, List.length_map, length_toSextets, Array.length_toList]
  rfl

theorem utf8Size_letter {n : Nat} (h : n < 64) : (letter n).utf8Size = 1 := by
  revert n
  decide

/-- Bits are grouped by six, the last group being filled up. -/
theorem lt_of_mem_toSextets {bs : List UInt8} {n : Nat} (h : n ∈ toSextets bs) : n < 64 := by
  induction bs using toSextets.induct with
  | case1 a b c r ih =>
    have ha := a.toNat_lt
    have hb := b.toNat_lt
    have hc := c.toNat_lt
    simp only [toSextets, List.mem_cons] at h
    obtain rfl | rfl | rfl | rfl | hr := h
    · omega
    · omega
    · omega
    · omega
    · exact ih hr
  | case2 a b =>
    have ha := a.toNat_lt
    have hb := b.toNat_lt
    simp only [toSextets, List.mem_cons, List.not_mem_nil, or_false] at h
    omega
  | case3 a =>
    have ha := a.toNat_lt
    simp only [toSextets, List.mem_cons, List.not_mem_nil, or_false] at h
    omega
  | case4 => cases h

theorem utf8ByteSize_letters {ns : List Nat} (h : ∀ n ∈ ns, n < 64) :
    (String.ofList (ns.map letter)).utf8ByteSize = ns.length := by
  induction ns with
  | nil => rfl
  | cons n ns ih =>
    obtain ⟨hn, hns⟩ := List.forall_mem_cons.mp h
    rw [List.map_cons, String.ofList_cons, String.utf8ByteSize_append,
      String.utf8ByteSize_singleton, utf8Size_letter hn, ih hns, List.length_cons, Nat.add_comm]

/-- Every letter of a text is one byte. -/
theorem utf8ByteSize_encode (b : ByteArray) : (encode b).utf8ByteSize = (encode b).length := by
  rw [encode, utf8ByteSize_letters fun n hn => lt_of_mem_toSextets hn, String.length_ofList,
    List.length_map]

theorem decodeChars_toSextets (bs : List UInt8) :
    decodeChars ((toSextets bs).map letter) = some bs := by
  have hletters : ∀ c ∈ (toSextets bs).map letter, decide (c ≠ '=') = true := by
    intro c hc
    obtain ⟨n, hn, rfl⟩ := List.mem_map.mp hc
    exact decide_eq_true (letter_ne_padding (lt_of_mem_toSextets hn))
  unfold decodeChars
  rw [List.takeWhile_eq_self_iff.mpr hletters, List.dropWhile_eq_nil_iff.mpr hletters]
  dsimp only
  rw [mapM_letterValue? fun n hn => lt_of_mem_toSextets hn]
  dsimp only [bind, Option.bind]
  rw [ofSextets_toSextets]
  exact if_pos ⟨rfl, Nat.zero_le _⟩

/-- **Bytes are read back from base64.** -/
theorem decode_encode (b : ByteArray) : decode (encode b) = .ok b := by
  unfold decode encode
  rw [String.toList_ofList, decodeChars_toSextets]

end Trustless.Base64
