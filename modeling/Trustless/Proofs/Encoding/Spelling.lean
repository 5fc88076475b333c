import Mathlib.Data.List.Forall2
import Trustless.Proofs.Encoding.Base64
import Trustless.Proofs.Link

/-!
# The spellings of a base64 text

A reader that takes two alphabets and any part of the padding takes several texts for the same bytes.
They are few: in the text that is written for the bytes, each `-` may stand as `+` and each `_` as
`/`, and behind it there may be padding up to the end of its last group of four. All other texts are
refused, so that no text can be taken for the bytes of another one.

* `SpelledAs`, `Spelling`: the characters for a letter, and the texts for a text.
* `letterValue?_eq_some_iff`: the characters that have a value.
* `ofSextets_eq_some_iff`: groups of six bits stand for bytes in one way only.
* `decodeChars_eq_some_iff`: what is read as given bytes.
* `decode_spellings`: all of it, for texts and for links.
-/

namespace Trustless

namespace Base64

/-- A letter of the URL-safe alphabet and a character that is taken for it: itself, or what stands in
its place in the other alphabet. -/
inductive SpelledAs : Char → Char → Prop
  | same (c : Char) : SpelledAs c c
  | plus : SpelledAs '-' '+'
  | slash : SpelledAs '_' '/'

/-- A text in which letters may stand in the other alphabet, with padding behind it. -/
def Spelling (text : String) (padding : Nat) (s : String) : Prop :=
  ∃ letters, List.Forall₂ SpelledAs text.toList letters ∧
    s.toList = letters ++ List.replicate padding '='

example : Spelling "-_8" 1 "+_8=" :=
  ⟨['+', '_', '8'], .cons .plus (.cons (.same '_') (.cons (.same '8') .nil)), rfl⟩

variable {c : Char} {n : Nat} {cs : List Char} {ns : List Nat} {bs : List UInt8}

/-! ## Letters -/

/-- A letter has its value in every spelling. -/
theorem letterValue?_of_spelledAs (hn : n < 64) (h : SpelledAs (letter n) c) :
    letterValue? c = some n := by
  have hvalue := letterValue?_letter hn
  generalize letter n = l at h hvalue
  cases h with
  | same => exact hvalue
  | plus => exact hvalue
  | slash => exact hvalue

/-- The letters of a range have consecutive values. -/
theorem spelledAs_of_le {first last : Char} {value : Nat} (hfirst : first ≤ c) (hlast : c ≤ last)
    (hrange : ∀ i, i ≤ last.toNat - first.toNat →
      i + value < 64 ∧ letter (i + value) = Char.ofNat (first.toNat + i)) :
    c.toNat - first.toNat + value < 64 ∧ SpelledAs (letter (c.toNat - first.toNat + value)) c := by
  have hle : first.toNat ≤ c.toNat := hfirst
  have hge : c.toNat ≤ last.toNat := hlast
  obtain ⟨hlt, hletter⟩ := hrange (c.toNat - first.toNat) (by omega)
  rw [Nat.add_sub_cancel' hle, Char.ofNat_toNat] at hletter
  rw [hletter]
  exact ⟨hlt, .same c⟩

/-- **The characters that have a value are the spellings of the letter with that value.** -/
theorem letterValue?_eq_some_iff : letterValue? c = some n ↔ n < 64 ∧ SpelledAs (letter n) c := by
  refine ⟨fun h => ?_, fun h => letterValue?_of_spelledAs h.1 h.2⟩
  unfold letterValue? at h
  split at h
  · rename_i hc
    obtain rfl := Option.some.inj h
    rw [← Nat.add_zero (c.toNat - 'A'.toNat)]
    exact spelledAs_of_le hc.1 hc.2 (by decide)
  split at h
  · rename_i hc
    obtain rfl := Option.some.inj h
    exact spelledAs_of_le hc.1 hc.2 (by decide)
  split at h
  · rename_i hc
    obtain rfl := Option.some.inj h
    exact spelledAs_of_le hc.1 hc.2 (by decide)
  split at h
  · rename_i hc
    obtain rfl := Option.some.inj h
    obtain rfl | rfl := hc
    · exact ⟨by decide, .same '-'⟩
    · exact ⟨by decide, .plus⟩
  split at h
  · rename_i hc
    obtain rfl := Option.some.inj h
    obtain rfl | rfl := hc
    · exact ⟨by decide, .same '_'⟩
    · exact ⟨by decide, .slash⟩
  · cases h

/-- **Letters are read as values exactly if they spell the letters of these values.** -/
theorem mapM_letterValue?_eq_some_iff : cs.mapM letterValue? = some ns ↔
    (∀ n ∈ ns, n < 64) ∧ List.Forall₂ SpelledAs (ns.map letter) cs := by
  induction cs generalizing ns with
  | nil =>
    cases ns with
    | nil => simp
    | cons n ns => simp
  | cons c cs ih =>
    rw [List.mapM_cons]
    cases ns with
    | nil => cases letterValue? c <;> cases cs.mapM letterValue? <;> simp
    | cons n ns =>
      rw [List.map_cons, List.forall₂_cons, List.forall_mem_cons, and_and_and_comm,
        ← letterValue?_eq_some_iff, ← ih]
      cases letterValue? c <;> cases cs.mapM letterValue? <;> simp

/-! ## Groups of six bits -/

/-- **Groups of six bits stand for bytes in one way only**, since what fills up the last group must be
zero. -/
theorem ofSextets_eq_some_iff (hns : ∀ n ∈ ns, n < 64) :
    ofSextets ns = some bs ↔ ns = toSextets bs := by
  constructor
  · intro h
    induction ns using ofSextets.induct generalizing bs with
    | case1 w x y z r ih =>
      simp only [List.forall_mem_cons] at hns
      obtain ⟨hw, hx, hy, hz, hr⟩ := hns
      rw [ofSextets] at h
      obtain ⟨rest, hrest, rfl⟩ := Option.map_eq_some_iff.mp h
      simp only [toSextets, UInt8.toNat_ofNat', List.cons.injEq]
      refine ⟨?_, ?_, ?_, ?_, ih hr hrest⟩ <;> omega
    | case2 w x y hfill =>
      simp only [List.forall_mem_cons] at hns
      obtain ⟨hw, hx, hy, -⟩ := hns
      rw [ofSextets, if_pos hfill] at h
      cases h
      simp only [toSextets, UInt8.toNat_ofNat', List.cons.injEq, and_true]
      refine ⟨?_, ?_, ?_⟩ <;> omega
    | case3 w x y hfill => simp [ofSextets, hfill] at h
    | case4 w x hfill =>
      simp only [List.forall_mem_cons] at hns
      obtain ⟨hw, hx, -⟩ := hns
      rw [ofSextets, if_pos hfill] at h
      cases h
      simp only [toSextets, UInt8.toNat_ofNat', List.cons.injEq, and_true]
      refine ⟨?_, ?_⟩ <;> omega
    | case5 w x hfill => simp [ofSextets, hfill] at h
    | case6 w => cases h
    | case7 =>
      cases h
      rfl
  · rintro rfl
    exact ofSextets_toSextets bs

/-! ## Texts -/

/-- No padding is taken for a letter. -/
theorem ne_padding_of_mapM (h : cs.mapM letterValue? = some ns) : ∀ c ∈ cs, c ≠ '=' := by
  induction cs generalizing ns with
  | nil => simp
  | cons c cs ih =>
    simp only [List.mapM_cons, bind, Option.bind_eq_some_iff] at h
    obtain ⟨n, hn, ns', hns', -⟩ := h
    refine List.forall_mem_cons.mpr ⟨?_, ih hns'⟩
    rintro rfl
    cases hn

/-- A text is cut where its padding starts. -/
theorem span_padding {letters : List Char} (padding : Nat) (h : ∀ c ∈ letters, c ≠ '=') :
    (letters ++ List.replicate padding '=').takeWhile (· ≠ '=') = letters ∧
      (letters ++ List.replicate padding '=').dropWhile (· ≠ '=') = List.replicate padding '=' := by
  have hletters : ∀ c ∈ letters, decide (c ≠ '=') = true := fun c hc => decide_eq_true (h c hc)
  rw [List.takeWhile_append_of_pos hletters, List.dropWhile_append_of_pos hletters]
  cases padding with
  | zero => simp
  | succ padding => simp [List.replicate_succ]

/-- **What is read as given bytes**: the spellings of their letters, with padding that does not go
beyond the last group of four. -/
theorem decodeChars_eq_some_iff : decodeChars cs = some bs ↔
    ∃ letters padding, List.Forall₂ SpelledAs ((toSextets bs).map letter) letters ∧
      cs = letters ++ List.replicate padding '=' ∧
      padding ≤ (4 - (toSextets bs).length % 4) % 4 := by
  constructor
  · intro h
    simp only [decodeChars, bind, Option.bind_eq_some_iff] at h
    obtain ⟨ns, hns, bytes, hbytes, h⟩ := h
    split at h
    · rename_i hpadding
      obtain rfl := Option.some.inj h
      obtain ⟨hlt, hletters⟩ := mapM_letterValue?_eq_some_iff.mp hns
      obtain rfl := (ofSextets_eq_some_iff hlt).mp hbytes
      refine ⟨_, _, hletters, ?_, hpadding.2⟩
      have hall : cs.dropWhile (· ≠ '=')
          = List.replicate (cs.dropWhile (· ≠ '=')).length '=' :=
        List.eq_replicate_iff.mpr ⟨rfl, by simpa using hpadding.1⟩
      rw [← hall, List.takeWhile_append_dropWhile]
    · cases h
  · rintro ⟨letters, padding, hletters, rfl, hpadding⟩
    have hlt : ∀ n ∈ toSextets bs, n < 64 := fun n hn => lt_of_mem_toSextets hn
    have hvalues : letters.mapM letterValue? = some (toSextets bs) :=
      mapM_letterValue?_eq_some_iff.mpr ⟨hlt, hletters⟩
    obtain ⟨hfront, hback⟩ := span_padding padding (ne_padding_of_mapM hvalues)
    unfold decodeChars
    rw [hfront, hback]
    simp [hvalues, ofSextets_toSextets, hpadding]

/-- There is as much padding behind letters as bytes are missing to groups of three. -/
theorem padding_eq (b : ByteArray) :
    (4 - (toSextets b.data.toList).length % 4) % 4 = (3 - b.size % 3) % 3 := by
  rw [length_toSextets, Array.length_toList]
  change (4 - (4 * b.size + 2) / 3 % 4) % 4 = _
  have hrest : b.size % 3 = 0 ∨ b.size % 3 = 1 ∨ b.size % 3 = 2 := by omega
  rcases hrest with h | h | h <;> omega

theorem toList_encode (b : ByteArray) : (encode b).toList = (toSextets b.data.toList).map letter :=
  String.toList_ofList

/-- **What is read as given bytes**: the spellings of the text that is written for them. -/
theorem decode_eq_ok_iff {s : String} {b : ByteArray} :
    decode s = .ok b ↔ ∃ padding ≤ (3 - b.size % 3) % 3, Spelling (encode b) padding s := by
  have hread : decode s = .ok b ↔ decodeChars s.toList = some b.data.toList := by
    unfold decode
    cases decodeChars s.toList with
    | none => simp
    | some bs =>
      constructor
      · rintro ⟨⟩
        simp
      · rintro ⟨⟩
        simp
  rw [hread, decodeChars_eq_some_iff, padding_eq]
  simp only [Spelling, toList_encode]
  constructor
  · rintro ⟨letters, padding, hletters, hs, hpadding⟩
    exact ⟨padding, hpadding, letters, hletters, hs⟩
  · rintro ⟨padding, hpadding, letters, hletters, hs⟩
    exact ⟨letters, padding, hletters, hs, hpadding⟩

theorem decode_eq_error_iff {s : String} {e : EncodingError} :
    decode s = .error e ↔ e = .invalidBase64 ∧ ∀ b, decode s ≠ .ok b := by
  unfold decode
  cases decodeChars s.toList with
  | none => simp [eq_comm]
  | some bs => simp

end Base64

/-! ## Links -/

namespace Link

theorem ofText_eq_ok_iff {s : String} {link : Link} :
    ofText s = .ok link ↔ Base64.decode s = .ok link.bytes.toByteArray := by
  unfold ofText
  cases hdecode : Base64.decode s with
  | error e => simp
  | ok b =>
    simp only [ofBytes_eq_ok_iff, Except.ok.injEq]
    exact eq_comm

/-- A link is read back from its text. -/
theorem ofText_toText (link : Link) : ofText link.toText = .ok link :=
  ofText_eq_ok_iff.mpr (Base64.decode_encode _)

end Link

/-- **A base64 text is read exactly if it is a spelling.** A text stands for given bytes if it is the
text that is written for them, with any `-` as `+` and any `_` as `/`, and with any part of the padding
that its last group of four lacks behind it; every other text is refused. So the texts of a link are
the spellings of the text that is written for it, with at most two characters of padding, that text
among them. -/
theorem Base64.decode_spellings (s : String) :
    (∀ b : ByteArray, decode s = .ok b ↔
      ∃ padding ≤ (3 - b.size % 3) % 3, Spelling (encode b) padding s) ∧
    (∀ e, decode s = .error e ↔ e = .invalidBase64 ∧
      ∀ (b : ByteArray), ∀ padding ≤ (3 - b.size % 3) % 3, ¬ Spelling (encode b) padding s) ∧
    ∀ link : Link,
      (Link.ofText s = .ok link ↔ ∃ padding ≤ 2, Spelling link.toText padding s) ∧
        Link.ofText link.toText = .ok link := by
  refine ⟨fun b => decode_eq_ok_iff, fun e => ?_, fun link => ⟨?_, ?_⟩⟩
  · rw [decode_eq_error_iff]
    simp [decode_eq_ok_iff]
  · rw [Link.ofText_eq_ok_iff, decode_eq_ok_iff, link.bytes.size_eq]
    rfl
  · exact Link.ofText_eq_ok_iff.mpr (decode_encode _)

end Trustless
