import Mathlib.Data.List.TakeWhile
import Trustless.Json.Token

/-!
# Tokens are read back from their text

A string is closed by the first quote that is not escaped, and a number ends where a character
follows that no number has. Two numbers in a row would run into each other; all other tokens are told
apart by their own text, so that a text of tokens can be cut into them again.

* `readString_quote`: a quoted string is read back, and what follows it is left.
* `ofChars?_toChars`: an integer is read back.
* `next?_toChars`: the first token of a text is read back.
* `scan?_toChars`: so are all of them.
-/

namespace Trustless.Json

/-! ## Strings -/

namespace Token

theorem readString_plain {c : Char} (hquote : c ≠ '"') (hback : c ≠ '\\')
    (hcontrol : ¬ c.toNat < 0x20) (cs : List Char) :
    readString (c :: cs) = push c (readString cs) := by
  rw [readString.eq_def]
  split
  · next h => cases h
  · next h => exact absurd (List.cons.inj h).1 hquote
  · next h => exact absurd (List.cons.inj h).1 hback
  · next h => exact absurd (List.cons.inj h).1 hback
  · next h =>
    obtain ⟨rfl, rfl⟩ := List.cons.inj h
    rw [if_neg (by simp [hback, hcontrol])]

/-- A character is read back from its plain or escaped form. -/
theorem readString_escape (c : Char) (cs : List Char) :
    readString (escape c ++ cs) = push c (readString cs) := by
  unfold escape
  by_cases hquote : c = '"'
  · subst hquote
    rfl
  by_cases hback : c = '\\'
  · subst hback
    rfl
  by_cases hn : c = '\n'
  · subst hn
    rfl
  by_cases hr : c = '\r'
  · subst hr
    rfl
  by_cases ht : c = '\t'
  · subst ht
    rfl
  by_cases hb : c = '\x08'
  · subst hb
    rfl
  by_cases hf : c = '\x0c'
  · subst hf
    rfl
  rw [if_neg hquote, if_neg hback, if_neg hn, if_neg hr, if_neg ht, if_neg hb, if_neg hf]
  by_cases hcontrol : c.toNat < 0x20
  · rw [if_pos hcontrol]
    have hhex : hex4? '0' '0' (Hex.digit (c.toNat / 16)) (Hex.digit (c.toNat % 16))
        = some c.toNat := by
      unfold hex4?
      rw [Hex.digitValue?_digit (show c.toNat / 16 < 16 by omega),
        Hex.digitValue?_digit (show c.toNat % 16 < 16 by omega)]
      show some (4096 * 0 + 256 * 0 + 16 * (c.toNat / 16) + c.toNat % 16) = some c.toNat
      congr 1
      omega
    simp only [List.cons_append, List.nil_append]
    rw [readString, hhex]
    dsimp only
    rw [if_neg (by omega), if_neg (by omega), Char.ofNat_toNat]
  · rw [if_neg hcontrol]
    exact readString_plain hquote hback hcontrol cs

/-- **A quoted string is read back**, and what follows it is left. -/
theorem readString_quote (s cs : List Char) :
    readString (s.flatMap escape ++ '"' :: cs) = some (s, cs) := by
  induction s with
  | nil => rfl
  | cons c s ih =>
    rw [List.flatMap_cons, List.append_assoc, readString_escape, ih]
    rfl

end Token

/-! ## Numbers -/

/-- The first digit of a positive number is not a zero. -/
theorem toDigits_eq_cons {n : Nat} (h : 0 < n) :
    ∃ c cs, Nat.toDigits 10 n = c :: cs ∧ c ≠ '0' := by
  induction n using Nat.strongRecOn with
  | ind n ih =>
    by_cases hn : n < 10
    · have hdigit : ∀ d, d < 10 → 0 < d → Nat.digitChar d ≠ '0' := by decide
      exact ⟨_, _, Nat.toDigits_of_lt_base hn, hdigit n hn h⟩
    · obtain ⟨c, cs, hcs, hc⟩ := ih (n / 10) (by omega) (by omega)
      refine ⟨c, cs ++ [(n % 10).digitChar], ?_, hc⟩
      rw [Nat.toDigits_of_base_le (by decide) (by omega), hcs, List.cons_append]

theorem isDigit_of_mem {n : Nat} {c : Char} (h : c ∈ Nat.toDigits 10 n) : c.isDigit = true :=
  Nat.isDigit_of_mem_toDigits (by decide) (by decide) h

namespace Numeral

theorem readWhole_toDigits (n : Nat) :
    readWhole (Nat.toDigits 10 n) = some (Nat.toDigits 10 n, []) := by
  have htake : (Nat.toDigits 10 n).takeWhile Char.isDigit = Nat.toDigits 10 n :=
    List.takeWhile_eq_self_iff.mpr fun _ h => isDigit_of_mem h
  have hdrop : (Nat.toDigits 10 n).dropWhile Char.isDigit = [] :=
    List.dropWhile_eq_nil_iff.mpr fun _ h => isDigit_of_mem h
  unfold readWhole
  rw [htake, hdrop]
  rcases Nat.eq_zero_or_pos n with rfl | hpos
  · rfl
  · obtain ⟨c, cs, hcs, hc⟩ := toDigits_eq_cons hpos
    rw [hcs]
    split
    · simp_all
    · simp_all
    · simp_all
    · rfl

theorem ofChars?_toDigits (n : Nat) :
    ofChars? (Nat.toDigits 10 n) = some ⟨false, Nat.toDigits 10 n, none, none⟩ := by
  have hminus : ∀ ds, Nat.toDigits 10 n ≠ '-' :: ds := by
    intro ds h
    have := isDigit_of_mem (n := n) (c := '-') (by rw [h]; exact List.mem_cons_self)
    exact absurd this (by decide)
  unfold ofChars?
  split
  next h =>
    split at h
    · next hsign => exact absurd hsign (hminus _)
    · obtain ⟨rfl, rfl⟩ := Prod.mk.inj h
      simp only [readWhole_toDigits]
      rfl

theorem ofChars?_neg_toDigits (n : Nat) :
    ofChars? ('-' :: Nat.toDigits 10 n) = some ⟨true, Nat.toDigits 10 n, none, none⟩ := by
  unfold ofChars?
  simp only [readWhole_toDigits]
  rfl

end Numeral

namespace Number

/-- The numbers that are kept as integers of 64 bits. -/
def IsInteger : Number → Prop
  | natural n => n < UInt64.size
  | negative n => 0 < n ∧ n ≤ UInt64.size / 2
  | real .. => False

/-- **An integer is read back.** -/
theorem ofChars?_toChars {n : Number} (h : n.IsInteger) : ofChars? n.toChars = some n := by
  cases n with
  | natural n =>
    have hn : (!false && decide (n < UInt64.size)) = true := decide_eq_true h
    rw [ofChars?, toChars, Numeral.ofChars?_toDigits]
    simp only [Option.bind_eq_bind, Option.bind_some, ofNumeral?, Nat.ofDigitChars_ten_toDigits]
    rw [if_pos hn]
  | negative n =>
    obtain ⟨hpos, hn⟩ := h
    rw [ofChars?, toChars, Numeral.ofChars?_neg_toDigits]
    simp only [Option.bind_eq_bind, Option.bind_some, ofNumeral?, Nat.ofDigitChars_ten_toDigits]
    rw [if_neg (by simp), if_pos (by simp [hpos, hn])]
  | real minus m => exact h.elim

/-- The text of an integer is made of characters of numbers. -/
theorem inNumber_of_mem {n : Number} (h : n.IsInteger) {c : Char} (hc : c ∈ n.toChars) :
    Token.inNumber c = true := by
  have hdigit : ∀ {m : Nat}, c ∈ Nat.toDigits 10 m → Token.inNumber c = true := by
    intro m hm
    simp [Token.inNumber, isDigit_of_mem hm]
  cases n with
  | natural n => exact hdigit hc
  | negative n =>
    rcases List.mem_cons.mp hc with rfl | hc
    · rfl
    · exact hdigit hc
  | real minus m => exact h.elim

theorem toChars_ne_nil {n : Number} (h : n.IsInteger) : n.toChars ≠ [] := by
  cases n with
  | natural n => exact Nat.toDigits_ne_nil
  | negative n => exact List.cons_ne_nil _ _
  | real minus m => exact h.elim

end Number

/-! ## Tokens -/

namespace Token

variable {t : Token} {ts : List Token} {cs : List Char}

/-- The tokens that are read back as they are: all but numbers that are no integers. -/
def IsExact : Token → Prop
  | number n => n.IsInteger
  | _ => True

/-- A text that does not go on with a number. -/
def EndsNumber (cs : List Char) : Prop :=
  ∀ c ∈ cs.head?, inNumber c = false

/-- A number must not be followed by more of a number. -/
def EndsBefore : Token → List Char → Prop
  | number _, cs => EndsNumber cs
  | _, _ => True

theorem next?_of_inNumber {c : Char} (h : inNumber c = true) (cs : List Char) :
    next? (c :: cs) = (Number.ofChars? ((c :: cs).takeWhile inNumber)).map fun n =>
      (number n, (c :: cs).dropWhile inNumber) := by
  rw [next?.eq_def]
  split
  all_goals first
    | rfl
    | (next heq =>
        obtain ⟨rfl, -⟩ := List.cons.inj heq
        exact absurd h (by decide))

theorem takeWhile_number {n : Number} (h : n.IsInteger) (hcs : EndsNumber cs) :
    (n.toChars ++ cs).takeWhile inNumber = n.toChars ∧
      (n.toChars ++ cs).dropWhile inNumber = cs := by
  have hall : ∀ c ∈ n.toChars, inNumber c = true := fun _ hc => Number.inNumber_of_mem h hc
  rw [List.takeWhile_append_of_pos hall, List.dropWhile_append_of_pos hall]
  cases cs with
  | nil => exact ⟨List.append_nil _, rfl⟩
  | cons c cs =>
    have hc : inNumber c = false := hcs c rfl
    rw [List.takeWhile_cons_of_neg (by simp [hc]), List.dropWhile_cons_of_neg (by simp [hc])]
    exact ⟨List.append_nil _, rfl⟩

/-- **The first token of a text is read back**, and what follows it is left. -/
theorem next?_toChars (h : t.IsExact) (hcs : t.EndsBefore cs) :
    next? (t.toChars ++ cs) = some (t, cs) := by
  cases t with
  | number n =>
    obtain ⟨htake, hdrop⟩ := takeWhile_number h hcs
    show next? (n.toChars ++ cs) = _
    cases hn : n.toChars with
    | nil => exact absurd hn (Number.toChars_ne_nil h)
    | cons c ds =>
      rw [hn] at htake hdrop
      have hc : inNumber c = true := Number.inNumber_of_mem h (by rw [hn]; exact List.mem_cons_self)
      rw [List.cons_append] at htake hdrop ⊢
      rw [next?_of_inNumber hc, htake, hdrop, ← hn, Number.ofChars?_toChars h]
      rfl
  | string s =>
    show (readString (s.toList.flatMap escape ++ ['"'] ++ cs)).map _ = _
    rw [List.append_assoc, List.singleton_append, readString_quote, Option.map_some]
    dsimp only
    rw [String.ofList_toList]
  | bool b => cases b <;> rfl
  | openArray => rfl
  | closeArray => rfl
  | openObject => rfl
  | closeObject => rfl
  | comma => rfl
  | colon => rfl
  | null => rfl

/-! ## Texts -/

/-- Tokens that are read back from a text: exact ones, and no two numbers in a row. -/
def Separated : List Token → Prop
  | [] => True
  | t :: ts => t.IsExact ∧ t.EndsBefore (ts.flatMap toChars) ∧ Separated ts

/-- The text of a token is not empty and does not start with a blank. -/
theorem exists_toChars (h : t.IsExact) :
    ∃ c cs, t.toChars = c :: cs ∧ isBlank c = false := by
  cases t with
  | number n =>
    cases hn : n.toChars with
    | nil => exact absurd hn (Number.toChars_ne_nil h)
    | cons c ds =>
      refine ⟨c, ds, hn, ?_⟩
      have hc : inNumber c = true := Number.inNumber_of_mem h (by rw [hn]; exact List.mem_cons_self)
      by_contra hblank
      simp only [isBlank, Bool.not_eq_false, Bool.or_eq_true, beq_iff_eq] at hblank
      rcases hblank with ((rfl | rfl) | rfl) | rfl <;> exact absurd hc (by decide)
  | bool b => cases b <;> exact ⟨_, _, rfl, rfl⟩
  | string s => exact ⟨_, _, rfl, rfl⟩
  | openArray => exact ⟨_, _, rfl, rfl⟩
  | closeArray => exact ⟨_, _, rfl, rfl⟩
  | openObject => exact ⟨_, _, rfl, rfl⟩
  | closeObject => exact ⟨_, _, rfl, rfl⟩
  | comma => exact ⟨_, _, rfl, rfl⟩
  | colon => exact ⟨_, _, rfl, rfl⟩
  | null => exact ⟨_, _, rfl, rfl⟩

theorem scanWith_toChars (h : Separated ts) :
    ∀ {fuel : Nat}, (ts.flatMap toChars).length < fuel →
      scanWith fuel (ts.flatMap toChars) = some ts := by
  induction ts with
  | nil =>
    intro fuel hfuel
    cases fuel with
    | zero => exact absurd hfuel (Nat.not_lt_zero _)
    | succ fuel => rfl
  | cons t ts ih =>
    -- Every token has at least one character, so that the fuel lasts for the rest.
    obtain ⟨hexact, hends, hrest⟩ := h
    intro fuel hfuel
    cases fuel with
    | zero => exact absurd hfuel (Nat.not_lt_zero _)
    | succ fuel =>
      obtain ⟨c, cs, hcs, hblank⟩ := exists_toChars hexact
      have hnext := next?_toChars hexact hends
      rw [List.flatMap_cons] at hfuel ⊢
      rw [hcs, List.cons_append] at hfuel hnext ⊢
      rw [List.length_cons, List.length_append] at hfuel
      rw [scanWith, if_neg (by simp [hblank]), hnext]
      dsimp only
      rw [ih hrest (by omega)]
      rfl

/-- **Tokens are read back from their text.** -/
theorem scan?_toChars (h : Separated ts) : scan? (ts.flatMap toChars) = some ts :=
  scanWith_toChars h (Nat.lt_succ_self _)

end Token

end Trustless.Json
