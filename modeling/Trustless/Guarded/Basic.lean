import Trustless.Bytes.LittleEndian

/-!
# Computations that can stop

The library counts in natural numbers and cuts bytes wherever it is told to. A machine counts in
words: a sum can leave its word, a difference can fall below zero, a shift can be longer than the
word, and a cut can reach beyond the bytes. There is no answer then, not even a failure with a cause.
A guarded computation takes every such step by name.

* `Guarded`: a computation that ends with a value or a cause, or stops.
* `below`, `word`, `minus`, `shiftLeft`, `shiftRight`: arithmetic that can stop.
* `byte`, `slice`, `field`, `wordAt`: reading that can stop.
* `copy`: writing that can stop.
* `checkedAdd`: a sum that is asked for with its overflow.
-/

namespace Trustless

/-- A computation that ends with a value or with a cause, or stops. -/
abbrev Guarded (ε : Type) : Type → Type :=
  ExceptT ε Option

namespace Guarded

variable {ε α : Type}

/-- A computation that does not stop. -/
def of (x : Except ε α) : Guarded ε α :=
  ExceptT.mk (some x)

/-- The end without a value and without a cause. -/
def stop : Guarded ε α :=
  ExceptT.mk none

/-! ## Arithmetic -/

/-- The result of arithmetic that must stay below a bound. -/
def below (bound n : Nat) : Guarded ε Nat :=
  if n < bound then pure n else stop

/-- The result of arithmetic on words of 64 bits. -/
def word (n : Nat) : Guarded ε Nat :=
  below UInt64.size n

/-- The result of arithmetic on words of 32 bits. -/
def shortWord (n : Nat) : Guarded ε Nat :=
  below UInt32.size n

/-- A difference, which must not fall below zero. -/
def minus (a b : Nat) : Guarded ε Nat :=
  if b ≤ a then pure (a - b) else stop

/-- A word of 64 bits that is shifted to the left; what leaves the word is lost. -/
def shiftLeft (a amount : Nat) : Guarded ε Nat :=
  if amount < 64 then pure ((a <<< amount) % UInt64.size) else stop

/-- A word of 16 bits that is shifted to the right. -/
def shiftRight (a amount : Nat) : Guarded ε Nat :=
  if amount < 16 then pure (a >>> amount) else stop

/-- A sum of words of 64 bits, if it is one. -/
def checkedAdd (a b : Nat) : Option Nat :=
  if a + b < UInt64.size then some (a + b) else none

/-! ## Reading -/

/-- The byte at a place. -/
def byte (b : ByteArray) (i : Nat) : Guarded ε UInt8 :=
  if h : i < b.size then pure b[i] else stop

/-- The bytes from one place to another. -/
def slice (b : ByteArray) (start stop : Nat) : Guarded ε ByteArray :=
  if start ≤ stop ∧ stop ≤ b.size then pure (b.extract start stop) else Guarded.stop

/-- The bytes of a field of fixed length. -/
def field (b : ByteArray) (start n : Nat) : Guarded ε (ByteVector n) := do
  let bytes ← slice b start (start + n)
  match ByteVector.ofByteArray? n bytes with
  | some v => return v
  | none => stop

/-- The word of 64 bits at a place. -/
def wordAt (b : ByteArray) (i : Nat) : Guarded ε UInt64 := do
  let bytes ← slice b i (i + 8)
  match Bytes.decodeU64 bytes with
  | .ok n => return n
  | .error _ => stop

/-! ## Writing -/

/-- Bytes that are copied over those from one place to another, which must be as many. -/
def copy (b : ByteArray) (start stop : Nat) (bytes : ByteArray) : Guarded ε ByteArray :=
  if start ≤ stop ∧ stop ≤ b.size ∧ bytes.size = stop - start then
    pure (b.extract 0 start ++ bytes ++ b.extract stop b.size)
  else Guarded.stop

end Guarded

end Trustless
