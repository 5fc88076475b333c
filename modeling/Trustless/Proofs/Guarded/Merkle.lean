import Trustless.Guarded.Merkle
import Trustless.Proofs.Guarded.Basic
import Trustless.Proofs.Merkle.InPlace
import Trustless.Proofs.Merkle.ProofSize

/-!
# The check of a range proof does not stop

Leaves are counted up to 65536 once the range is known to lie in the sector, and joining trees
changes nothing in what a row counts, so that no tree grows higher than the bits of that number. The
checks of the range come before all other arithmetic, and the one sum among them is asked for with
its overflow.

* `tiling_eq`: the blocks beside a range.
* `pushTrees_eq`, `pushAll_eq`, `pushLeaves_eq`: pushes that count less than a power of two.
* `leafRange_eq`, `verifyRange_eq`: the checks of any input.
-/

namespace Trustless

namespace Forest

variable {α : Type} {join : α → α → α} {t : Subtree α} {ts ts' : List (Subtree α)}

/-- Joining changes nothing in what a row counts, in whatever order its trees stand. -/
theorem weight_pushTrees (h : pushTrees join t ts = .ok ts') :
    weight ts' = weight ts + 2 ^ t.height := by
  induction ts generalizing t with
  | nil =>
    cases h
    exact Nat.add_comm _ _
  | cons top rest ih =>
    rw [pushTrees] at h
    by_cases htall : t.height > top.height
    · rw [if_pos htall] at h
      cases h
    · rw [if_neg htall] at h
      by_cases hlow : t.height < top.height
      · rw [if_pos hlow] at h
        cases h
        exact Nat.add_comm _ _
      · rw [if_neg hlow] at h
        obtain heq : t.height = top.height := by omega
        rw [ih h, weight_cons, ← heq, Nat.pow_succ]
        omega

theorem weight_push {f f' : Forest α} (h : f.push join t = .ok f') :
    weight f'.trees = weight f.trees + 2 ^ t.height := by
  rw [push] at h
  cases hpush : pushTrees join t f.trees with
  | error e =>
    rw [hpush] at h
    cases h
  | ok trees =>
    rw [hpush] at h
    cases h
    exact weight_pushTrees hpush

theorem weight_pushAll {f f' : Forest α} (h : f.pushAll join ts = .ok f') :
    weight f'.trees = weight f.trees + weight ts := by
  induction ts generalizing f with
  | nil =>
    cases h
    rfl
  | cons t ts ih =>
    rw [pushAll, List.foldlM_cons] at h
    cases hpush : f.push join t with
    | error e =>
      rw [hpush] at h
      cases h
    | ok next =>
      rw [hpush] at h
      rw [ih h, weight_push hpush, weight_cons]
      omega

end Forest

theorem Hasher.weight_pushLeaves {H : Hasher} {leaves : List ByteArray} {f f' : Forest Digest}
    (h : H.pushLeaves leaves f = .ok f') :
    Forest.weight f'.trees = Forest.weight f.trees + 2 * leaves.length := by
  induction leaves generalizing f with
  | nil =>
    cases h
    rfl
  | cons b bs ih =>
    rw [pushLeaves, List.foldlM_cons, pushLeaf] at h
    by_cases hb : b.size = Sector.leafSize
    · rw [if_pos hb] at h
      cases hpush : f.push H.node ⟨H.leaf b, 1⟩ with
      | error e =>
        rw [hpush] at h
        cases h
      | ok next =>
        rw [hpush] at h
        rw [ih h, Forest.weight_push hpush, List.length_cons]
        dsimp only
        omega
    · rw [if_neg hb] at h
      cases h

namespace Guarded

open Merkle Forest

variable {α : Type} {join : α → α → α} {k first last : Nat} {H : Hasher}

/-! ## Blocks -/

/-- A power of two below the length of a word is a word. -/
theorem shiftLeft_one_lt (h : k < 64) : 1 <<< k < UInt64.size := by
  rw [Nat.one_shiftLeft]
  exact Nat.pow_lt_pow_of_lt (by decide) h

theorem alignedBlock_eq (start : Nat) :
    ∀ (tries k : Nat), k + tries < 64 →
      alignedBlock start tries (k + 1) (1 <<< k)
        = of (.ok (alignedHeight start tries (k + 1),
          1 <<< (alignedHeight start tries (k + 1) - 1)))
  | 0, _, _ => rfl
  | tries + 1, k, h => by
    have hdouble : 1 <<< k * 2 = 1 <<< (k + 1) := by
      rw [Nat.one_shiftLeft, Nat.one_shiftLeft, Nat.pow_succ]
    have hword : 1 <<< k * 2 < UInt64.size := hdouble ▸ shiftLeft_one_lt (by omega)
    rw [alignedBlock, alignedHeight, word_of_lt hword, of_ok_bind, hdouble]
    by_cases hmod : start % 1 <<< (k + 1) = 0
    · have hheight : k + 1 + 1 < UInt32.size :=
        lt_of_le_of_lt (by omega : k + 1 + 1 ≤ 65) (by decide)
      rw [if_pos hmod, if_pos hmod, shortWord_of_lt hheight, of_ok_bind]
      exact alignedBlock_eq start tries (k + 1) (by omega)
    · rw [if_neg hmod, if_neg hmod]
      rfl

theorem firstBlock_eq {start stop : Nat} (h : stop < UInt64.size) :
    firstBlock start stop = of (firstBlock? start stop) := by
  rw [firstBlock, firstBlock?]
  by_cases hle : stop ≤ start
  · rw [if_pos hle, if_pos hle]
    rfl
  · rw [if_neg hle, if_neg hle]
    have hlog : (stop - start).log2 < 64 :=
      (Nat.log2_lt (by omega)).mpr (lt_of_le_of_lt (Nat.sub_le _ _) h)
    have hheight : (stop - start).log2 + 1 < UInt32.size :=
      lt_of_le_of_lt (by omega : (stop - start).log2 + 1 ≤ 64) (by decide)
    have haligned := alignedBlock_eq start (maxHeight - 1) 0 (by decide)
    rw [Nat.zero_add, Nat.shiftLeft_zero] at haligned
    rw [haligned, of_ok_bind]
    dsimp only
    rw [minus_of_le (Nat.le_of_not_le hle), of_ok_bind,
      shiftLeft_of_lt hlog (shiftLeft_one_lt hlog), of_ok_bind, shortWord_of_lt hheight, of_ok_bind,
      Merkle.firstBlock]
    generalize alignedHeight start (maxHeight - 1) 1 = height
    by_cases hlow : height < (stop - start).log2 + 1
    · rw [if_pos hlow, Nat.min_eq_left hlow.le]
      rfl
    · rw [if_neg hlow, Nat.min_eq_right (Nat.le_of_not_lt hlow)]
      rfl

theorem tiling_eq {stop : Nat} (h : stop < UInt64.size) :
    ∀ (fuel start : Nat), tiling fuel start stop = of (.ok (tilingWith fuel start stop))
  | 0, _ => rfl
  | fuel + 1, start => by
    rw [tiling, tilingWith]
    by_cases hlt : start < stop
    · obtain ⟨d, hblock, -, hfit, -⟩ := firstBlock_spec hlt
      rw [if_pos hlt, if_pos hlt, firstBlock_eq h, firstBlock?, if_neg (Nat.not_le_of_lt hlt),
        of_ok_bind, hblock]
      dsimp only
      rw [word_of_lt (lt_of_le_of_lt hfit h), of_ok_bind, tiling_eq h fuel, of_ok_bind]
      rfl
    · rw [if_neg hlt, if_neg hlt]
      rfl

/-! ## Trees -/

/-- **A push that counts less than a power of two does not stop**: the trees that it joins stay
below that height. -/
theorem pushTrees_eq (hk : k < UInt32.size) {t : Subtree α} {ts : List (Subtree α)}
    (h : weight ts + 2 ^ t.height < 2 ^ k) :
    pushTrees join t ts = of (Forest.pushTrees join t ts) := by
  induction ts generalizing t with
  | nil => rfl
  | cons top rest ih =>
    rw [pushTrees, Forest.pushTrees]
    by_cases htall : t.height > top.height
    · rw [if_pos htall, if_pos htall]
      rfl
    · rw [if_neg htall, if_neg htall]
      by_cases hlow : t.height < top.height
      · rw [if_pos hlow, if_pos hlow]
        rfl
      · rw [if_neg hlow, if_neg hlow]
        obtain heq : t.height = top.height := by omega
        have hjoined : weight rest + 2 ^ (t.height + 1) = weight (top :: rest) + 2 ^ t.height := by
          rw [weight_cons, ← heq, Nat.pow_succ]
          omega
        rw [← hjoined] at h
        have hheight : t.height + 1 < k := (Nat.pow_lt_pow_iff_right (by decide)).mp
          (lt_of_le_of_lt (Nat.le_add_left _ (weight rest)) h)
        rw [shortWord_of_lt (hheight.trans hk), of_ok_bind]
        exact ih h

theorem push_eq (hk : k < UInt32.size) {t : Subtree α} {f : Forest α}
    (h : weight f.trees + 2 ^ t.height < 2 ^ k) : push join t f = of (f.push join t) := by
  rw [push, pushTrees_eq hk h, Forest.push]
  cases Forest.pushTrees join t f.trees <;> rfl

theorem pushAll_eq (hk : k < UInt32.size) {ts : List (Subtree α)} {f : Forest α}
    (h : weight f.trees + weight ts < 2 ^ k) : pushAll join ts f = of (f.pushAll join ts) := by
  induction ts generalizing f with
  | nil => rfl
  | cons t ts ih =>
    rw [weight_cons] at h
    rw [pushAll, push_eq hk (by omega), Forest.pushAll, List.foldlM_cons]
    refine of_bind fun f' hpush => ih ?_
    rw [weight_push hpush]
    omega

theorem pushLeaves_eq (hk : k < UInt32.size) {leaves : List ByteArray} {f : Forest Digest}
    (h : weight f.trees + 2 * leaves.length < 2 ^ k) :
    pushLeaves H leaves f = of (H.pushLeaves leaves f) := by
  induction leaves generalizing f with
  | nil => rfl
  | cons b bs ih =>
    rw [List.length_cons] at h
    rw [pushLeaves, Hasher.pushLeaves, List.foldlM_cons, Hasher.pushLeaf]
    by_cases hb : b.size = Sector.leafSize
    · rw [if_neg (not_not.mpr hb), if_pos hb, push_eq hk (by dsimp only; omega)]
      refine of_bind fun f' hpush => ih ?_
      rw [weight_push hpush]
      dsimp only
      omega
    · rw [if_pos hb, if_neg hb]
      rfl

/-! ## The check -/

/-- The sum of offset and size is asked for with its overflow, so that nothing is assumed of them. -/
theorem leafRange_eq (offset size : Nat) :
    leafRange offset size = of (RangeProof.leafRange offset size) := by
  have hsector : Sector.size < UInt64.size := by decide
  rw [leafRange, RangeProof.leafRange]
  by_cases hempty : size = 0
  · rw [if_pos hempty, if_pos hempty]
    rfl
  · rw [if_neg hempty, if_neg hempty]
    by_cases hout : offset + size > Sector.size
    · have hnone : (checkedAdd offset size).filter (· ≤ Sector.size) = none := by
        by_cases hword : offset + size < UInt64.size
        · rw [checkedAdd_of_lt hword, Option.filter_some, if_neg (by simpa using hout)]
        · rw [checkedAdd_of_le (Nat.le_of_not_lt hword), Option.filter_none]
      rw [if_pos hout, hnone]
      rfl
    · have hsome : (checkedAdd offset size).filter (· ≤ Sector.size) = some (offset + size) := by
        rw [checkedAdd_of_lt (by omega), Option.filter_some, if_pos (by simpa using hout)]
      rw [if_neg hout, hsome]
      dsimp only
      by_cases halign : offset % Sector.leafSize ≠ 0 ∨ size % Sector.leafSize ≠ 0
      · rw [if_pos halign, if_pos halign]
        rfl
      · rw [if_neg halign, if_neg halign]
        rfl

/-- Every block covers a leaf. -/
theorem length_tilingWith_le (stop : Nat) :
    ∀ (fuel start : Nat), (tilingWith fuel start stop).length ≤ fuel
  | 0, _ => Nat.le_refl 0
  | fuel + 1, start => by
    rw [tilingWith]
    split
    · exact Nat.succ_le_succ (length_tilingWith_le stop fuel _)
    · exact Nat.zero_le _

/-- There are no more blocks beside a range than leaves in a sector. -/
theorem length_blocks_le (hlt : first ≤ last) (hlast : last ≤ Sector.leaves) :
    (RangeProof.blocksBefore first).length + (RangeProof.blocksAfter last).length
      ≤ Sector.leaves := by
  have hbefore : (RangeProof.blocksBefore first).length ≤ first := length_tilingWith_le first _ 0
  have hafter : (RangeProof.blocksAfter last).length ≤ Sector.leaves - last :=
    length_tilingWith_le Sector.leaves _ last
  omega

theorem blocksBefore_eq (h : first ≤ Sector.leaves) :
    tiling first 0 first = of (.ok (RangeProof.blocksBefore first)) :=
  tiling_eq (lt_of_le_of_lt h (by decide)) first 0

theorem blocksAfter_eq (last : Nat) : tiling (Sector.leaves - last) last Sector.leaves
    = of (.ok (RangeProof.blocksAfter last)) :=
  tiling_eq (by decide) (Sector.leaves - last) last

/-- Given roots count no more than twice the leaves that their blocks cover. -/
theorem weight_subtrees_le {n m : Nat} {bs : List Block} (h : Tiles n bs m)
    (roots : List Digest) : weight (RangeProof.subtrees roots bs) ≤ 2 * (m - n) := by
  refine le_of_le_of_eq ?_ h.sum_eq
  induction h generalizing roots with
  | nil =>
    rw [RangeProof.subtrees, List.zipWith_nil_right]
    exact Nat.le_refl 0
  | cons hn h ih =>
    cases roots with
    | nil => exact Nat.zero_le _
    | cons r roots => exact Nat.add_le_add_left (ih roots) _

/-- What is pushed in the check of a range proof counts no more than twice the leaves of the
sector. -/
theorem weight_pieces_lt {offset size : Nat} {data : ByteArray} (roots roots' : List Digest)
    (hr : RangeProof.leafRange offset size = .ok (first, last)) (hd : data.size = size) :
    weight (RangeProof.subtrees roots (RangeProof.blocksBefore first))
      + 2 * (Bytes.chunks data Sector.leafSize).length
      + weight (RangeProof.subtrees roots' (RangeProof.blocksAfter last)) < 2 ^ 18 := by
  obtain ⟨hlt, hlast, -, -⟩ := RangeProof.leafRange_eq_ok_iff.mp hr
  have hbefore := weight_subtrees_le (tiles_tiling (Nat.zero_le first)) roots
  have hafter := weight_subtrees_le (tiles_tiling hlast) roots'
  have hleaves := RangeProof.leaves_of_leafRange hr hd
  rw [Bytes.length_chunks, RangeProof.blocksBefore, RangeProof.blocksAfter]
  simp only [Sector.leaves] at *
  omega

/-- What is put behind each other from given roots, leaves and given roots, and is compared with a
root, does not stop if all of it counts less than a power of two. -/
theorem joined_eq (H : Hasher) (hk : k < UInt32.size) {before after : List (Subtree Digest)}
    {leaves : List ByteArray} {root : Digest}
    (h : weight before + 2 * leaves.length + weight after < 2 ^ k) :
    (do
      let forest ← pushAll H.node before .empty
      let forest ← pushLeaves H leaves forest
      let forest ← pushAll H.node after forest
      let found ← of (forest.root H.node)
      if found ≠ root then throw .rootMismatch : Guarded MerkleError Unit)
    = of (do
      let forest ← Forest.empty.pushAll H.node before
      let forest ← H.pushLeaves leaves forest
      let forest ← forest.pushAll H.node after
      let found ← forest.root H.node
      if found ≠ root then throw .rootMismatch) := by
  have hempty : weight (Forest.empty : Forest Digest).trees = 0 := rfl
  rw [pushAll_eq hk (by omega)]
  refine of_bind fun f₁ h₁ => ?_
  have hf₁ := weight_pushAll h₁
  rw [pushLeaves_eq hk (by omega)]
  refine of_bind fun f₂ h₂ => ?_
  have hf₂ := Hasher.weight_pushLeaves h₂
  rw [pushAll_eq hk (by omega)]
  refine of_bind fun f₃ _ => of_bind fun found _ => ?_
  split <;> rfl

/-- **The check of a range proof does not stop**, whatever it is given. -/
theorem verifyRange_eq (H : Hasher) (root : Digest) (offset size : Nat) (data proof : ByteArray) :
    verifyRange H root offset size data proof
      = of (RangeProof.verify H root offset size data proof) := by
  rw [verifyRange, leafRange_eq, RangeProof.verify]
  refine of_bind fun range hr => ?_
  obtain ⟨first, last⟩ := range
  dsimp only
  obtain ⟨hlt, hlast, -, -⟩ := RangeProof.leafRange_eq_ok_iff.mp hr
  by_cases hdata : data.size = size
  · rw [if_neg (not_not.mpr hdata), if_neg (not_not.mpr hdata)]
    have hcount := length_blocks_le hlt.le hlast
    have hword : (RangeProof.blocksBefore first).length + (RangeProof.blocksAfter last).length
        < UInt64.size := lt_of_le_of_lt hcount (by decide)
    have hbytes : ((RangeProof.blocksBefore first).length + (RangeProof.blocksAfter last).length)
        * 32 < UInt64.size := lt_of_le_of_lt (Nat.mul_le_mul_right 32 hcount) (by decide)
    rw [blocksBefore_eq (hlt.le.trans hlast), of_ok_bind, blocksAfter_eq, of_ok_bind,
      word_of_lt hword, of_ok_bind, word_of_lt hbytes, of_ok_bind, Nat.mul_comm _ 32]
    by_cases hproof : proof.size
        = 32 * ((RangeProof.blocksBefore first).length + (RangeProof.blocksAfter last).length)
    · rw [if_neg (not_not.mpr hproof), if_neg (not_not.mpr hproof)]
      exact joined_eq H (k := 18) (by decide) (weight_pieces_lt _ _ hr hdata)
    · rw [if_pos hproof, if_pos hproof]
      rfl
  · rw [if_pos hdata, if_pos hdata]
    rfl

end Guarded

end Trustless
