import Trustless.Proofs.Merkle.Verification

/-!
# Provers and verifiers agree

The prover computes every root of a proof from scratch, and the verifier carries them on into one
forest. Both come down to the perfect tree over the leaves of the sector: a run of `2 ^ k` leaves
has one root, whoever computes it.

* `Hasher.perfectRoot`: the root over a run of leaves, from the top down.
* `Hasher.merkleRoot_eq_perfectRoot`: the forest computes it.
* `build_eq`: what the prover answers for a range that can be proved.
* `verify_honestProof`: the verifier accepts it with the data of the range.
* `build_agrees_with_verify`: they succeed on the same ranges and fail alike on all others.
-/

namespace Trustless

namespace Hasher

/-- The root of the perfect tree over the `2 ^ k` leaves from `start` on. -/
def perfectRoot (H : Hasher) (leaf : Nat → ByteArray) : (k start : Nat) → Digest
  | 0, start => H.leaf (leaf start)
  | k + 1, start => H.node (H.perfectRoot leaf k start) (H.perfectRoot leaf k (start + 2 ^ k))

/-- Only the leaves of the run count, wherever they are numbered from. -/
theorem perfectRoot_shift (H : Hasher) {leaf leaf' : Nat → ByteArray} {a : Nat} :
    ∀ {k start : Nat}, (∀ j, start ≤ j → j < start + 2 ^ k → leaf' j = leaf (a + j)) →
      H.perfectRoot leaf' k start = H.perfectRoot leaf k (a + start)
  | 0, start, h => by
    rw [perfectRoot, perfectRoot, h start le_rfl (by rw [pow_zero]; omega)]
  | k + 1, start, h => by
    have hpow : 2 ^ (k + 1) = 2 ^ k + 2 ^ k := by ring
    rw [perfectRoot, perfectRoot, perfectRoot_shift H fun j hlo hhi => h j hlo (by omega),
      perfectRoot_shift H fun j hlo hhi => h j (by omega) (by omega), Nat.add_assoc]

/-- The tree at a place has the root of the leaves that stand there. -/
def Honest (H : Hasher) (leaf : Nat → ByteArray) : Forest.Placement HashTree :=
  fun k i t => t.root H = H.perfectRoot leaf k (i * 2 ^ k)

theorem joins_honest (H : Hasher) (leaf : Nat → ByteArray) :
    Forest.Joins .node (Honest H leaf) := by
  intro k i l r hl hr
  have hleft : i * 2 ^ (k + 1) = 2 * i * 2 ^ k := by ring
  have hright : i * 2 ^ (k + 1) + 2 ^ k = (2 * i + 1) * 2 ^ k := by ring
  unfold Honest at *
  rw [perfectRoot, hright, hleft, ← hl, ← hr]
  rfl

/-- **The forest of `2 ^ k` leaves computes the root of the perfect tree over them.** -/
theorem merkleRoot_eq_perfectRoot (H : Hasher) {data : ByteArray} {k : Nat}
    (h : data.size = 2 ^ k * Sector.leafSize) :
    H.merkleRoot data = .ok (H.perfectRoot (Bytes.chunk data Sector.leafSize) k 0) := by
  have hcount : data.size / Sector.leafSize = 2 ^ k := by
    rw [h]
    exact Nat.mul_div_cancel _ (by decide)
  have hlaid : Forest.Laid (Honest H (Bytes.chunk data Sector.leafSize)) 0
      (HashTree.ofLeaves (Bytes.chunks data Sector.leafSize)) (2 ^ k) := by
    have := HashTree.laid_ofLeaves (P := Honest H (Bytes.chunk data Sector.leafSize))
      (RangeProof.leafAt data 0) (2 ^ k) 0 fun i _ _ => by
        rw [Honest, perfectRoot, pow_zero, Nat.mul_one]
        rfl
    rwa [Nat.zero_add, ← hcount, ← RangeProof.chunks_eq_leafAt, hcount] at this
  obtain ⟨t, ht, hroot⟩ := Forest.joined_of_laid (joins_honest H _) hlaid
  rw [Honest, Nat.zero_mul] at hroot
  rw [H.merkleRoot_eq (by rw [h]; exact Nat.mul_mod_left _ _), HashTree.ofData, ht, ← hroot]
  rfl

end Hasher

namespace RangeProof

open Merkle

variable (H : Hasher) (sector : ByteArray)

/-! ## The prover -/

/-- The roots of consecutive blocks, from leaf `n` on. -/
def blockRoots (leaf : Nat → ByteArray) : Nat → List Block → List Digest
  | _, [] => []
  | n, b :: bs => H.perfectRoot leaf (b.height - 1) n :: blockRoots leaf (n + b.size) bs

/-- The leaves of a sector. -/
def sectorLeaf (i : Nat) : ByteArray :=
  Bytes.chunk sector Sector.leafSize i

/-- The root of a sector. -/
def sectorRoot : Digest :=
  H.perfectRoot (sectorLeaf sector) 16 0

/-- The proof for the leaves from `first` up to `last`. -/
def honestProof (first last : Nat) : ByteArray :=
  ofHashes (blockRoots H (sectorLeaf sector) 0 (blocksBefore first)
    ++ blockRoots H (sectorLeaf sector) last (blocksAfter last))

theorem length_blockRoots (leaf : Nat → ByteArray) (n : Nat) (bs : List Block) :
    (blockRoots H leaf n bs).length = bs.length := by
  induction bs generalizing n with
  | nil => rfl
  | cons b bs ih => exact congrArg Nat.succ (ih _)

variable {H sector} {offset size first last : Nat}

/-- A run of leaves of a sector has the root that it has within the sector. -/
theorem merkleRoot_extract (hs : sector.size = Sector.size) {n k : Nat}
    (h : n + 2 ^ k ≤ Sector.leaves) :
    H.merkleRoot (sector.extract (n * Sector.leafSize) ((n + 2 ^ k) * Sector.leafSize))
      = .ok (H.perfectRoot (sectorLeaf sector) k n) := by
  have hsize : (sector.extract (n * Sector.leafSize) ((n + 2 ^ k) * Sector.leafSize)).size
      = 2 ^ k * Sector.leafSize := by
    rw [ByteArray.size_extract, hs]
    simp only [Sector.size, Sector.leafSize, Sector.leaves] at *
    omega
  rw [H.merkleRoot_eq_perfectRoot hsize]
  refine congrArg Except.ok (H.perfectRoot_shift (a := n) fun j _ hj => ?_)
  exact Bytes.chunk_extract sector (by omega)

theorem rootsOf_eq (hs : sector.size = Sector.size) {n m : Nat} {bs : List Block}
    (h : Tiles n bs m) (hm : m ≤ Sector.leaves) :
    rootsOf H sector n bs = .ok (ofHashes (blockRoots H (sectorLeaf sector) n bs)) := by
  induction h with
  | nil => rfl
  | @cons n m k i bs hn h ih =>
    have hnext := succ_mul_eq_add hn
    have hle := h.le.trans hm
    rw [hnext] at hle
    have hrest := ih hm
    rw [hnext] at hrest
    rw [rootsOf]
    dsimp only
    rw [merkleRoot_extract hs hle, hrest]
    rfl

/-- What the prover answers for a range that can be proved. -/
theorem build_eq (hs : sector.size = Sector.size)
    (hr : leafRange offset size = .ok (first, last)) :
    build H sector offset size = .ok (honestProof H sector first last) := by
  obtain ⟨hlt, hlast, -, -⟩ := leafRange_eq_ok_iff.mp hr
  have hbefore := rootsOf_eq (H := H) hs (tiles_tiling (Nat.zero_le first)) (hlt.le.trans hlast)
  have hafter := rootsOf_eq (H := H) hs (tiles_tiling hlast) le_rfl
  rw [build, hr, honestProof, ofHashes_append]
  show (if sector.size ≠ Sector.size then _ else _) = _
  rw [if_neg (not_not.mpr hs)]
  show (rootsOf H sector 0 (tiling 0 first) >>= fun before =>
    rootsOf H sector last (tiling last Sector.leaves) >>= fun after => _) = _
  rw [hbefore, hafter]
  rfl

/-! ## The verifier -/

/-- The prover's roots lie where the blocks lie. -/
theorem laid_blockRoots {leaf : Nat → ByteArray} {n m : Nat} {bs : List Block}
    (h : Tiles n bs m) (rest : List Digest) :
    Forest.Laid (H.Honest leaf) n (givenTrees (blockRoots H leaf n bs ++ rest) bs) m := by
  induction h with
  | nil =>
    rw [givenTrees, List.zipWith_nil_right]
    exact .nil
  | @cons n m k i bs hn h ih =>
    have hnext := succ_mul_eq_add hn
    rw [hnext] at ih h
    refine .cons hn (show _ = _ from ?_) (by rw [hnext]; exact ih)
    rw [← hn]
    rfl

/-- **The verifier accepts what the prover answers**, with the data of the range. -/
theorem verify_honestProof (hs : sector.size = Sector.size)
    (hr : leafRange offset size = .ok (first, last)) :
    verify H (sectorRoot H sector) offset size (sector.extract offset (offset + size))
      (honestProof H sector first last) = .ok () := by
  obtain ⟨hlt, hlast, ho, hend⟩ := leafRange_eq_ok_iff.mp hr
  have hd : (sector.extract offset (offset + size)).size = size := by
    rw [ByteArray.size_extract, hs]
    simp only [Sector.size, Sector.leafSize, Sector.leaves] at *
    omega
  have hlen : (blockRoots H (sectorLeaf sector) 0 (blocksBefore first)).length
      = (blocksBefore first).length := length_blockRoots ..
  have hp : (honestProof H sector first last).size = proofSize first last := by
    rw [honestProof, size_ofHashes, List.length_append, length_blockRoots, length_blockRoots,
      proofSize]
  -- Each of the three parts is honest where it stands, and so is the tree that they make.
  have hbefore : Forest.Laid (H.Honest (sectorLeaf sector)) 0
      (givenTrees (hashes (honestProof H sector first last)) (blocksBefore first)) first := by
    rw [honestProof, hashes_ofHashes]
    exact laid_blockRoots (tiles_tiling (Nat.zero_le first)) _
  have hafter : Forest.Laid (H.Honest (sectorLeaf sector)) last
      (givenTrees ((hashes (honestProof H sector first last)).drop (blocksBefore first).length)
        (blocksAfter last)) Sector.leaves := by
    have hlaid : Forest.Laid (H.Honest (sectorLeaf sector)) last
        (givenTrees (blockRoots H (sectorLeaf sector) last (blocksAfter last) ++ [])
          (blocksAfter last)) Sector.leaves := laid_blockRoots (tiles_tiling hlast) []
    rw [honestProof, hashes_ofHashes, ← hlen, List.drop_left]
    rwa [List.append_nil] at hlaid
  have hdata : ∀ i, first ≤ i → i < last → H.Honest (sectorLeaf sector) 0 i
      (.leaf (leafAt (sector.extract offset (offset + size)) first i)) := by
    intro i hf hl
    show H.leaf _ = H.leaf (sectorLeaf sector (i * 2 ^ 0))
    rw [pow_zero, Nat.mul_one, leafAt, hend, ho, Bytes.chunk_extract sector (by omega),
      Nat.add_sub_cancel' hf, sectorLeaf]
  obtain ⟨t, ht, hroot⟩ :=
    exists_hashTree_of_laid (H.joins_honest _) hr hd hbefore hdata hafter
  refine verify_eq_ok_iff.mpr ⟨first, last, t, hr, hd, hp, ht, ?_⟩
  rw [Hasher.Honest, Nat.zero_mul] at hroot
  exact hroot

theorem merkleRoot_sector (hs : sector.size = Sector.size) :
    H.merkleRoot sector = .ok (sectorRoot H sector) :=
  H.merkleRoot_eq_perfectRoot hs

/-! ## The same ranges, the same errors -/

/-- A range that is not empty, goes from leaf to leaf and lies within the sector. -/
def IsLeafRange (offset size : Nat) : Prop :=
  0 < size ∧ offset % Sector.leafSize = 0 ∧ size % Sector.leafSize = 0 ∧
    offset + size ≤ Sector.size

instance (offset size : Nat) : Decidable (IsLeafRange offset size) :=
  inferInstanceAs (Decidable (_ ∧ _))

/-- What is wrong with a range: the first thing that is. -/
def IsRangeFault (offset size : Nat) (e : MerkleError) : Prop :=
  size = 0 ∧ e = .emptyRange ∨
    0 < size ∧ Sector.size < offset + size ∧ e = .rangeOutOfBounds offset size ∨
    0 < size ∧ offset + size ≤ Sector.size ∧
      (offset % Sector.leafSize ≠ 0 ∨ size % Sector.leafSize ≠ 0) ∧ e = .misaligned offset size

theorem leafRange_of_isLeafRange (h : IsLeafRange offset size) :
    ∃ first last, leafRange offset size = .ok (first, last) := by
  obtain ⟨hpos, ho, hs, hend⟩ := h
  refine ⟨offset / Sector.leafSize, (offset + size) / Sector.leafSize, ?_⟩
  rw [leafRange, if_neg (by omega), if_neg (by omega), if_neg (by omega)]

theorem leafRange_of_not_isLeafRange (h : ¬ IsLeafRange offset size) :
    ∃ e, IsRangeFault offset size e ∧ leafRange offset size = .error e := by
  rw [leafRange]
  by_cases hempty : size = 0
  · rw [if_pos hempty]
    exact ⟨_, .inl ⟨hempty, rfl⟩, rfl⟩
  · rw [if_neg hempty]
    by_cases hout : offset + size > Sector.size
    · rw [if_pos hout]
      exact ⟨_, .inr (.inl ⟨by omega, hout, rfl⟩), rfl⟩
    · have halign : offset % Sector.leafSize ≠ 0 ∨ size % Sector.leafSize ≠ 0 := by
        by_contra hnot
        exact h ⟨by omega, by omega, by omega, by omega⟩
      rw [if_neg hout, if_pos halign]
      exact ⟨_, .inr (.inr ⟨by omega, by omega, halign, rfl⟩), rfl⟩

/-- **Prover and verifier agree on every range** of a full sector: where a range can be proved, the
proof is built and passes with the data of the range, and where it cannot, both report the same
fault. -/
theorem build_agrees_with_verify (H : Hasher) {sector : ByteArray}
    (hs : sector.size = Sector.size) (offset size : Nat) :
    (IsLeafRange offset size →
      ∃ proof root, build H sector offset size = .ok proof ∧ H.merkleRoot sector = .ok root ∧
        verify H root offset size (sector.extract offset (offset + size)) proof = .ok ()) ∧
    (¬ IsLeafRange offset size →
      ∃ e, IsRangeFault offset size e ∧ build H sector offset size = .error e ∧
        ∀ root data proof, verify H root offset size data proof = .error e) := by
  constructor
  · intro h
    obtain ⟨first, last, hr⟩ := leafRange_of_isLeafRange h
    exact ⟨_, _, build_eq hs hr, merkleRoot_sector hs, verify_honestProof hs hr⟩
  · intro h
    obtain ⟨e, he, hr⟩ := leafRange_of_not_isLeafRange h
    refine ⟨e, he, ?_, fun root data proof => ?_⟩
    · rw [build, hr]
      show (if sector.size ≠ Sector.size then _ else _) = _
      rw [if_neg (not_not.mpr hs)]
      rfl
    · exact verify_of_leafRange_error hr

theorem build_agrees_with_verify_zeros :
    (Bytes.zeros Sector.size).size = Sector.size ∧
    (IsLeafRange 192 320 ∧
      ∃ proof root, build .blake2b (Bytes.zeros Sector.size) 192 320 = .ok proof ∧
        Hasher.blake2b.merkleRoot (Bytes.zeros Sector.size) = .ok root ∧
        verify .blake2b root 192 320 ((Bytes.zeros Sector.size).extract 192 512) proof = .ok ()) ∧
    (¬ IsLeafRange 32 64 ∧
      ∃ e, IsRangeFault 32 64 e ∧ build .blake2b (Bytes.zeros Sector.size) 32 64 = .error e ∧
        ∀ root data proof, verify .blake2b root 32 64 data proof = .error e) := by
  have hs := Bytes.size_zeros Sector.size
  exact ⟨hs, ⟨by decide, (build_agrees_with_verify .blake2b hs 192 320).1 (by decide)⟩,
    ⟨by decide, (build_agrees_with_verify .blake2b hs 32 64).2 (by decide)⟩⟩

end RangeProof

end Trustless
