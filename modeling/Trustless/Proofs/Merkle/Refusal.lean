import Trustless.Proofs.Guarded.Merkle
import Trustless.Proofs.Merkle.Completeness

/-!
# Why a range proof is refused

A range proof is refused for its input, before anything is hashed, or because the root of the hash
tree is another one. The tilings on both sides of the range make every push fit, every leaf is whole
and there is at least one, so that nothing can go wrong in between.

* `proofLength`: the bytes of a proof, from the bits of two numbers.
* `InputFault`, `WellFormed`: the first thing that is wrong with an input, and that nothing is.
* `verify_of_inputFault`, `verify_of_wellFormed`: what either comes to.
* `verify_outcome`: all of it at once.
-/

namespace Trustless.RangeProof

open Merkle

/-- The bytes of the proof for a range: a hash for every bit of the number of leaves before it, and
of the number of leaves behind it. -/
def proofLength (offset size : Nat) : Nat :=
  32 * (popcount (offset / Sector.leafSize)
    + popcount (Sector.leaves - (offset + size) / Sector.leafSize))

/-- What is wrong with the input of a verification: the first thing that is. -/
inductive InputFault (offset size : Nat) (data proof : ByteArray) : MerkleError → Prop
  | range {e : MerkleError} (h : IsRangeFault offset size e) : InputFault offset size data proof e
  | dataLength (hrange : IsLeafRange offset size) (h : data.size ≠ size) :
      InputFault offset size data proof (.dataLength size data.size)
  | proofLength (hrange : IsLeafRange offset size) (hdata : data.size = size)
      (h : proof.size ≠ RangeProof.proofLength offset size) :
      InputFault offset size data proof
        (.proofLength (RangeProof.proofLength offset size) proof.size)

/-- An input with which nothing is wrong. -/
structure WellFormed (offset size : Nat) (data proof : ByteArray) : Prop where
  range : IsLeafRange offset size
  data : data.size = size
  proof : proof.size = proofLength offset size

variable {H : Hasher} {root : Digest} {offset size first last : Nat} {data proof : ByteArray}
  {e : MerkleError}

/-! ## Inputs -/

theorem leafRange_of_isRangeFault (h : IsRangeFault offset size e) :
    leafRange offset size = .error e := by
  rw [leafRange]
  rcases h with ⟨hempty, rfl⟩ | ⟨hpos, hout, rfl⟩ | ⟨hpos, hfit, halign, rfl⟩
  · rw [if_pos hempty]
  · rw [if_neg (by omega), if_pos hout]
  · rw [if_neg (by omega), if_neg (by omega), if_pos halign]

theorem not_isLeafRange_of_isRangeFault (h : IsRangeFault offset size e) :
    ¬ IsLeafRange offset size := by
  rintro ⟨hpos, ho, hs, hend⟩
  rcases h with ⟨hempty, -⟩ | ⟨-, hout, -⟩ | ⟨-, -, halign, -⟩ <;> omega

theorem proofSize_of_leafRange (hr : leafRange offset size = .ok (first, last)) :
    proofSize first last = proofLength offset size := by
  obtain ⟨hlt, hlast, hoffset, hend⟩ := leafRange_eq_ok_iff.mp hr
  have hfirst : offset / Sector.leafSize = first := by
    rw [hoffset]
    exact Nat.mul_div_cancel _ (by decide)
  have hstop : (offset + size) / Sector.leafSize = last := by
    rw [hend]
    exact Nat.mul_div_cancel _ (by decide)
  rw [proofSize_eq hlt.le hlast, proofLength, hfirst, hstop]

/-- Nothing is wrong with an input, or there is a first thing that is. -/
theorem wellFormed_or_inputFault (offset size : Nat) (data proof : ByteArray) :
    WellFormed offset size data proof ∨ ∃ e, InputFault offset size data proof e := by
  by_cases hrange : IsLeafRange offset size
  · by_cases hdata : data.size = size
    · by_cases hproof : proof.size = proofLength offset size
      · exact .inl ⟨hrange, hdata, hproof⟩
      · exact .inr ⟨_, .proofLength hrange hdata hproof⟩
    · exact .inr ⟨_, .dataLength hrange hdata⟩
  · obtain ⟨e, he, -⟩ := leafRange_of_not_isLeafRange hrange
    exact .inr ⟨e, .range he⟩

theorem InputFault.not_wellFormed (h : InputFault offset size data proof e) :
    ¬ WellFormed offset size data proof := by
  intro hwell
  cases h with
  | range h => exact not_isLeafRange_of_isRangeFault h hwell.range
  | dataLength _ h => exact h hwell.data
  | proofLength _ _ h => exact h hwell.proof

/-- No fault of an input has to do with what is pushed. -/
theorem InputFault.ne (h : InputFault offset size data proof e) :
    e ≠ .emptyStack ∧ (∀ height top, e ≠ .subtreeTooTall height top) ∧
      (∀ n, e ≠ .leafSize n) ∧ ∀ start stop, e ≠ .invalidSubtreeRange start stop := by
  cases h with
  | range h =>
    rcases h with ⟨-, rfl⟩ | ⟨-, -, rfl⟩ | ⟨-, -, -, rfl⟩ <;> exact ⟨nofun, nofun, nofun, nofun⟩
  | dataLength => exact ⟨nofun, nofun, nofun, nofun⟩
  | proofLength => exact ⟨nofun, nofun, nofun, nofun⟩

/-- **A fault of the input is reported**, whatever the hash function and the root. -/
theorem verify_of_inputFault (h : InputFault offset size data proof e) (H : Hasher)
    (root : Digest) : verify H root offset size data proof = .error e := by
  cases h with
  | range h => exact verify_of_leafRange_error (leafRange_of_isRangeFault h)
  | dataLength hrange h =>
    obtain ⟨first, last, hr⟩ := leafRange_of_isLeafRange hrange
    exact verify_of_size_ne hr h
  | proofLength hrange hdata h =>
    obtain ⟨first, last, hr⟩ := leafRange_of_isLeafRange hrange
    rw [← proofSize_of_leafRange hr] at h ⊢
    exact verify_of_proofSize_ne hr hdata h

/-- **A well-formed input is decided by the root of a hash tree** that has every hash of the proof
and every leaf of the data once, in their order. -/
theorem verify_of_wellFormed (h : WellFormed offset size data proof) (H : Hasher)
    (root : Digest) :
    ∃ t, hashTree offset size data proof = .ok t ∧ t.givens = hashes proof ∧
      ofHashes t.givens = proof ∧ t.leaves = Bytes.chunks data Sector.leafSize ∧
      verify H root offset size data proof
        = if t.root H = root then .ok () else .error .rootMismatch := by
  obtain ⟨first, last, hr⟩ := leafRange_of_isLeafRange h.range
  have hproof : proof.size = proofSize first last := h.proof.trans (proofSize_of_leafRange hr).symm
  obtain ⟨t, ht, -⟩ := exists_hashTree hr h.data hproof
  have hgivens := givens_hashTree hr hproof ht
  refine ⟨t, ht, hgivens, ?_, leaves_hashTree hr ht, ?_⟩
  · rw [hgivens]
    exact ofHashes_hashes hproof
  · rw [verify_eq hr h.data hproof, ht]
    exact ite_not _ _ _

/-! ## Outcomes -/

/-- The errors that a verification can end with: a fault of the input, or another root. -/
theorem error_cases (h : verify H root offset size data proof = .error e) :
    InputFault offset size data proof e ∨ WellFormed offset size data proof ∧ e = .rootMismatch := by
  rcases wellFormed_or_inputFault offset size data proof with hwell | ⟨e', hfault⟩
  · obtain ⟨t, -, -, -, -, hverify⟩ := verify_of_wellFormed hwell H root
    rw [hverify] at h
    split at h
    · cases h
    · exact .inr ⟨hwell, (Except.error.inj h).symm⟩
  · obtain rfl := Except.error.inj ((verify_of_inputFault hfault H root).symm.trans h)
    exact .inl hfault

/-- What a verification comes to. -/
structure VerifyOutcome (H : Hasher) (root : Digest) (offset size : Nat) (data proof : ByteArray) :
    Prop where
  /-- Nothing stops on the way, in words of 64 and heights of 32 bits. -/
  words : Guarded.verifyRange H root offset size data proof
    = .of (verify H root offset size data proof)
  /-- Either nothing is wrong with the input, or there is a first thing that is. -/
  input : WellFormed offset size data proof ↔ ¬ ∃ e, InputFault offset size data proof e
  /-- What is wrong with the input is told, before any hash can make a difference. -/
  fault : ∀ e, InputFault offset size data proof e → ∀ (H' : Hasher) (root' : Digest),
    verify H' root' offset size data proof = .error e
  /-- Otherwise every hash of the proof is used once, and only the root decides. -/
  compared : WellFormed offset size data proof →
    ∃ t, hashTree offset size data proof = .ok t ∧ t.givens = hashes proof ∧
      ofHashes t.givens = proof ∧ t.leaves = Bytes.chunks data Sector.leafSize ∧
      verify H root offset size data proof
        = if t.root H = root then .ok () else .error .rootMismatch
  /-- Nothing is ever wrong with what is pushed. -/
  never : ∀ e, verify H root offset size data proof = .error e →
    e ≠ .emptyStack ∧ (∀ height top, e ≠ .subtreeTooTall height top) ∧
      (∀ n, e ≠ .leafSize n) ∧ ∀ start stop, e ≠ .invalidSubtreeRange start stop

/-- **A range proof is refused for the first thing that is wrong with its input, or for its root.**
The range is empty, reaches beyond the sector or does not go from leaf to leaf; the data has not the
length of the range; or the proof does not have a hash for every bit of the numbers of leaves before
and behind the range. Otherwise every hash of the proof is used once, and the root decides. -/
theorem verify_outcome (H : Hasher) (root : Digest) (offset size : Nat) (data proof : ByteArray) :
    VerifyOutcome H root offset size data proof where
  words := Guarded.verifyRange_eq H root offset size data proof
  input := by
    constructor
    · exact fun hwell ⟨e, hfault⟩ => hfault.not_wellFormed hwell
    · exact (wellFormed_or_inputFault offset size data proof).resolve_right
  fault := fun e hfault => verify_of_inputFault hfault
  compared := fun hwell => verify_of_wellFormed hwell H root
  never := by
    intro e h
    rcases error_cases h with hfault | ⟨-, rfl⟩
    · exact hfault.ne
    · exact ⟨nofun, nofun, nofun, nofun⟩

end Trustless.RangeProof
