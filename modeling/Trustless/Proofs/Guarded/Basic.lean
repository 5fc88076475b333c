import Trustless.Guarded.Basic
import Trustless.Proofs.Bytes

/-!
# Steps that do not stop

Every guarded step comes with the condition under which it does not stop, and with what it then
gives. A computation of which no step stops is `of` what it computes.

* `of_bind`, `adapt_of`: sequences and renamed causes.
* `below_of_lt`, `minus_of_le`, `shiftLeft_of_lt`, `shiftRight_of_lt`: arithmetic.
* `byte_of_lt`, `slice_of_le`, `field_of_le`, `wordAt_of_le`: reading.
* `copy_zeros`, `copy_zeros_bind`: writing, one field behind the other.
-/

namespace Trustless.Guarded

variable {ε ε' α β : Type} {bound n a amount i j : Nat} {b : ByteArray}

/-! ## Sequences -/

theorem of_ok_bind (x : α) (f : α → Guarded ε β) : (of (.ok x) >>= f) = f x := rfl

/-- A sequence does not stop if no part of it does. -/
theorem of_bind {x : Except ε α} {f : α → Guarded ε β} {g : α → Except ε β}
    (h : ∀ y, x = .ok y → f y = of (g y)) : (of x >>= f) = of (x >>= g) := by
  cases x with
  | error e => rfl
  | ok y => exact h y rfl

theorem adapt_of (f : ε → ε') (x : Except ε α) : (of x).adapt f = of (x.mapError f) := rfl

/-! ## Arithmetic -/

theorem below_of_lt (h : n < bound) : (below bound n : Guarded ε Nat) = of (.ok n) :=
  if_pos h

theorem word_of_lt (h : n < UInt64.size) : (word n : Guarded ε Nat) = of (.ok n) :=
  below_of_lt h

theorem shortWord_of_lt (h : n < UInt32.size) : (shortWord n : Guarded ε Nat) = of (.ok n) :=
  below_of_lt h

theorem minus_of_le (h : n ≤ a) : (minus a n : Guarded ε Nat) = of (.ok (a - n)) :=
  if_pos h

/-- Nothing is lost of a number that does not leave its word. -/
theorem shiftLeft_of_lt (hamount : amount < 64) (h : a <<< amount < UInt64.size) :
    (shiftLeft a amount : Guarded ε Nat) = of (.ok (a <<< amount)) := by
  rw [shiftLeft, if_pos hamount, Nat.mod_eq_of_lt h]
  rfl

theorem shiftRight_of_lt (h : amount < 16) :
    (shiftRight a amount : Guarded ε Nat) = of (.ok (a >>> amount)) :=
  if_pos h

theorem checkedAdd_of_lt (h : a + n < UInt64.size) : checkedAdd a n = some (a + n) :=
  if_pos h

theorem checkedAdd_of_le (h : UInt64.size ≤ a + n) : checkedAdd a n = none :=
  if_neg (Nat.not_lt_of_le h)

/-- A sum that is asked for in two steps is the sum of all that is added. -/
theorem checkedAdd_bind (a n m : Nat) :
    (checkedAdd a n >>= fun sum => checkedAdd sum m) = checkedAdd (a + n) m := by
  by_cases h : a + n < UInt64.size
  · rw [checkedAdd_of_lt h]
    rfl
  · rw [checkedAdd_of_le (Nat.le_of_not_lt h), checkedAdd_of_le (by omega)]
    rfl

/-! ## Reading -/

theorem byte_of_lt (h : i < b.size) :
    (byte b i : Guarded ε UInt8) = of (.ok (Bytes.byteAt b i)) := by
  rw [byte, dif_pos h, Bytes.byteAt, dif_pos h]
  rfl

theorem slice_of_le (hij : i ≤ j) (hj : j ≤ b.size) :
    (slice b i j : Guarded ε ByteArray) = of (.ok (b.extract i j)) :=
  if_pos ⟨hij, hj⟩

theorem field_of_le (h : i + n ≤ b.size) :
    (field b i n : Guarded ε (ByteVector n)) = of (.ok (ByteVector.slice b i n h)) := by
  rw [field, slice_of_le (Nat.le_add_right i n) h, of_ok_bind]
  have hsize : ByteVector.ofByteArray? n (b.extract i (i + n))
      = some (ByteVector.slice b i n h) := ByteVector.ofByteArray?_eq_some_iff.mpr rfl
  rw [hsize]
  rfl

theorem wordAt_of_le (h : i + 8 ≤ b.size) :
    (wordAt b i : Guarded ε UInt64) = of (.ok (Bytes.u64 b i)) := by
  have hsize : (b.extract i (i + 8)).size = 8 := by
    rw [ByteArray.size_extract]
    omega
  rw [wordAt, slice_of_le (Nat.le_add_right i 8) h, of_ok_bind, Bytes.decodeU64, if_pos hsize,
    Bytes.u64_extract b (by omega)]
  rfl

/-! ## Writing -/

/-- A field is copied behind what is written, over the first of the zeros that follow. -/
theorem copy_zeros {start k : Nat} (written : ByteVector start) (v : ByteVector k) (rest : Nat) :
    (copy (written.toByteArray ++ Bytes.zeros (rest + k)) start (start + k) v.toByteArray :
      Guarded ε ByteArray) = of (.ok ((written ++ v).toByteArray ++ Bytes.zeros rest)) := by
  have hsize : (written.toByteArray ++ Bytes.zeros (rest + k)).size = start + (k + rest) := by
    rw [ByteArray.size_append, written.size_eq, Bytes.size_zeros, Nat.add_comm rest]
  have hbefore : (written.toByteArray ++ Bytes.zeros (rest + k)).extract 0 start
      = written.toByteArray := ByteArray.extract_append_eq_left written.size_eq.symm
  have hafter : (written.toByteArray ++ Bytes.zeros (rest + k)).extract (start + k)
      (start + (k + rest)) = Bytes.zeros rest := by
    rw [Nat.add_comm rest, ByteArray.extract_append_size_add' written.size_eq.symm,
      ← Bytes.zeros_append]
    exact ByteArray.extract_append_eq_right (Bytes.size_zeros k).symm (by simp)
  have hfits : start ≤ start + k ∧
      start + k ≤ (written.toByteArray ++ Bytes.zeros (rest + k)).size ∧
      v.toByteArray.size = start + k - start := by
    rw [hsize, v.size_eq]
    omega
  rw [copy, if_pos hfits, hsize, hbefore, hafter]
  rfl

theorem copy_zeros_bind {start k : Nat} (written : ByteVector start) (v : ByteVector k) (rest : Nat)
    (f : ByteArray → Guarded ε α) :
    (copy (written.toByteArray ++ Bytes.zeros (rest + k)) start (start + k) v.toByteArray >>= f)
      = f ((written ++ v).toByteArray ++ Bytes.zeros rest) := by
  rw [copy_zeros]
  rfl

end Trustless.Guarded
