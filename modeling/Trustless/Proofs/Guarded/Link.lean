import Trustless.Guarded.Link
import Trustless.Proofs.Guarded.Basic
import Trustless.Proofs.Link

/-!
# Building a link does not stop

A size that is not refused is no larger than a sector, which the lengths of the greatest mode reach.
Nothing is shifted far then: the eight lengths of a mode are numbered by three bits, which stand
behind at most seven ones and a zero.

* `modeFor_eq`: the search for a mode ends with the greatest one at the latest.
* `lengthIndex_eq`: shifted ones are the units of a mode.
* `encode_eq`: all sixteen bits, for any size.
-/

namespace Trustless.Guarded

open Target (greatest sizeUnit sizeBase maxMode)

variable {size mode : Nat}

theorem greatest_mul_two (mode : Nat) : greatest mode * 2 = greatest (mode + 1) := by
  rw [greatest, greatest, Nat.shiftLeft_succ, Nat.mul_comm]

/-- Greatest lengths of all modes are words, and by far. -/
theorem greatest_lt : ∀ mode, mode ≤ maxMode → greatest mode < UInt64.size := by
  decide

theorem modeFor_eq {tries : Nat} (hmode : mode + tries ≤ maxMode)
    (hreach : size ≤ greatest (mode + tries)) :
    modeFor size tries mode (greatest mode) = of (.ok (Target.modeFor size tries mode)) := by
  induction tries generalizing mode with
  | zero =>
    have hdone : ¬ greatest mode < size := Nat.not_lt_of_le hreach
    rw [modeFor, if_neg hdone]
    rfl
  | succ tries ih =>
    rw [modeFor, Target.modeFor_succ]
    by_cases hlow : greatest mode < size
    · have hnext : mode + 1 ≤ maxMode := by omega
      rw [if_pos hlow, if_pos hlow, shortWord_of_lt (lt_of_le_of_lt hnext (by decide)), of_ok_bind,
        greatest_mul_two, word_of_lt (greatest_lt _ hnext), of_ok_bind]
      exact ih (by omega) (by rwa [Nat.add_right_comm])
    · rw [if_neg hlow, if_neg hlow]
      rfl

/-- The unit of a mode is a shifted one, and so is what lies below its lengths. -/
theorem one_shiftLeft_units (mode : Nat) :
    1 <<< (11 + (mode + 1)) = sizeUnit (mode + 1) ∧
      1 <<< (14 + (mode + 1)) = sizeBase (mode + 1) := by
  simp only [sizeUnit, sizeBase, Nat.shiftLeft_eq, Nat.add_sub_cancel, if_neg (Nat.succ_ne_zero mode)]
  constructor <;> ring

theorem lengthIndex_eq (hmode : Target.ModeOf size mode) :
    lengthIndex size mode = of (.ok ((size - sizeBase mode - 1) / sizeUnit mode)) := by
  have hmax : mode ≤ 7 := hmode.le_max
  cases mode with
  | zero => rfl
  | succ mode =>
    obtain ⟨hunit, hlow⟩ := one_shiftLeft_units mode
    have hshift : ∀ amount, amount < 64 → 1 <<< amount < UInt64.size := by decide
    have hshort : UInt32.size = 4294967296 := rfl
    rw [lengthIndex, if_neg (Nat.succ_ne_zero mode), shortWord_of_lt (by omega), of_ok_bind,
      shiftLeft_of_lt (by omega) (hshift _ (by omega)), of_ok_bind, shortWord_of_lt (by omega),
      of_ok_bind, shiftLeft_of_lt (by omega) (hshift _ (by omega)), of_ok_bind, hunit, hlow,
      minus_of_le hmode.sizeBase_le, of_ok_bind]
    rfl

/-- The bits of an index stand before the ones of the mode, which stand before nothing. -/
theorem or_ones (index mode : Nat) :
    index <<< (mode + 1) ||| (1 <<< mode - 1) = index <<< (mode + 1) + (1 <<< mode - 1) := by
  refine (Nat.shiftLeft_add_eq_or_of_lt ?_ index).symm
  have hpow := Nat.two_pow_pos mode
  rw [Nat.one_shiftLeft, Nat.pow_succ]
  omega

/-- What makes up sixteen bits is far below a word. -/
theorem words_of_lt {high one : Nat} (h : (high + (one - 1)) * 4 < 65536) :
    high < UInt64.size ∧ one < UInt64.size ∧ (high + (one - 1)) <<< 2 < UInt64.size := by
  rw [Nat.shiftLeft_eq]
  simp only [UInt64.size]
  omega

/-- **Building the bits of a link does not stop**, whatever the size, and none of them is lost. -/
theorem encode_eq (size : Nat) : encode size = of (Target.encode size) := by
  rw [encode, Target.encode]
  by_cases hsize : size > Sector.size
  · rw [if_pos hsize, if_pos hsize]
    rfl
  · rw [if_neg hsize, if_neg hsize]
    have hsector : size ≤ Sector.size := Nat.le_of_not_lt hsize
    have hmode := Target.modeOf_modeFor hsector
    rw [show (32768 : Nat) = greatest 0 from rfl, modeFor_eq (Nat.zero_add _).le hsector, of_ok_bind]
    dsimp only
    generalize Target.modeFor size maxMode 0 = mode at hmode ⊢
    have hmax : mode ≤ 7 := hmode.le_max
    have hindex := hmode.index_lt
    rw [lengthIndex_eq hmode, of_ok_bind]
    generalize (size - sizeBase mode - 1) / sizeUnit mode = index at hindex ⊢
    obtain ⟨hbits, -⟩ := Target.decode_lengthBits mode hmode.le_max index hindex
    obtain ⟨hhigh, hone, hraw⟩ := words_of_lt hbits
    have hpos : 1 ≤ 1 <<< mode := by simp [Nat.one_shiftLeft, Nat.one_le_two_pow]
    have hshort : UInt32.size = 4294967296 := rfl
    rw [shortWord_of_lt (by omega), of_ok_bind, shiftLeft_of_lt (by omega) hhigh, of_ok_bind,
      shiftLeft_of_lt (by omega) hone, of_ok_bind, minus_of_le hpos, of_ok_bind, or_ones,
      shiftLeft_of_lt (by decide) hraw, of_ok_bind, Nat.shiftLeft_eq]
    exact below_of_lt hbits

end Trustless.Guarded
