import Trustless.Proofs.Guarded.Merkle

/-!
# No tiling is shorter

A tiling takes the largest block that is aligned and fits, and nothing else is looked at. Of two
blocks that are aligned at their sizes, one lies in the other or they are apart. So whatever blocks
cover a range, those that start in the first block of the tiling end in it, and what is left of them
covers what is left of the range: every block of the tiling stands for at least one of theirs.

The greatest height never counts in that argument if the range is shorter than twice the largest block,
since no block that fits is larger then.

* `firstBlock_maximal`: the block that is taken, and that no larger one could be.
* `firstBlock_of_tilingWith`: every block is the first of what is left.
* `Tiles.cut`: blocks can be cut where an aligned block ends.
* `length_tilingWith_le_of_tiles`: no blocks that cover the range are fewer.
* `tiling_shortest`: all of it, for any two words.
-/

namespace Trustless.Merkle

variable {start stop n m k : Nat} {bs : List Block} {b : Block}

/-! ## The first block -/

theorem alignedHeight_le (start : Nat) :
    ∀ tries height : Nat, alignedHeight start tries height ≤ height + tries
  | 0, _ => le_rfl
  | tries + 1, height => by
    rw [alignedHeight]
    split
    · exact (alignedHeight_le start tries (height + 1)).trans_eq (by omega)
    · exact Nat.le_add_right _ _

/-- A block that may start at a leaf, and that is as large as it can be: up to the greatest height,
twice its size is not aligned or does not fit. -/
structure Block.Maximal (b : Block) (start stop : Nat) : Prop where
  size_eq : b.size = 2 ^ (b.height - 1)
  height_pos : 1 ≤ b.height
  height_le : b.height ≤ maxHeight
  aligned : b.size ∣ start
  fits : start + b.size ≤ stop
  greatest : b.height = maxHeight ∨ ¬ 2 * b.size ∣ start ∨ stop < start + 2 * b.size

/-- **The first block is as large as it can be.** -/
theorem firstBlock_maximal (h : start < stop) : (firstBlock start stop).Maximal start stop := by
  obtain ⟨k, hblock, hdvd, hfit, hgreatest⟩ := firstBlock_spec h
  have hle : (firstBlock start stop).height ≤ maxHeight :=
    (Nat.min_le_left _ _).trans (alignedHeight_le start (maxHeight - 1) 1)
  rw [hblock] at hle ⊢
  refine ⟨rfl, Nat.succ_pos k, hle, hdvd, hfit, ?_⟩
  by_contra! hlarger
  obtain ⟨hmax, hdvd', hfit'⟩ := hlarger
  rw [← Nat.pow_succ'] at hdvd' hfit'
  exact absurd (hgreatest (k + 1) (lt_of_le_of_ne hle hmax) hdvd' hfit') (Nat.not_succ_le_self k)

/-! ## Blocks end to end -/

/-- Where blocks end that are laid end to end from a leaf on. -/
def endOf (start : Nat) (bs : List Block) : Nat :=
  start + (bs.map Block.size).sum

theorem endOf_cons (start : Nat) (b : Block) (bs : List Block) :
    endOf start (b :: bs) = endOf (start + b.size) bs := by
  rw [endOf, endOf, List.map_cons, List.sum_cons, Nat.add_assoc]

theorem Tiles.endOf_eq (h : Tiles n bs m) : endOf n bs = m := by
  induction h with
  | nil => rfl
  | @cons n m k i bs hn _ ih =>
    rw [endOf_cons, ← succ_mul_eq_add hn]
    exact ih

/-- Every block of a tiling is the first block of what is left of the range. -/
theorem firstBlock_of_tilingWith {before after : List Block} :
    ∀ {fuel start : Nat}, tilingWith fuel start stop = before ++ b :: after →
      endOf start before < stop ∧ b = firstBlock (endOf start before) stop := by
  induction before with
  | nil =>
    intro fuel start h
    cases fuel with
    | zero => cases h
    | succ fuel =>
      rw [tilingWith] at h
      split at h
      · next hlt => exact ⟨hlt, (List.cons.inj h).1.symm⟩
      · cases h
  | cons c before ih =>
    intro fuel start h
    cases fuel with
    | zero => cases h
    | succ fuel =>
      rw [tilingWith] at h
      split at h
      · obtain ⟨rfl, hrest⟩ := List.cons.inj h
        rw [endOf_cons]
        exact ih hrest
      · cases h

/-- As many rounds as there are leaves are enough, and more of them change nothing. -/
theorem tilingWith_congr :
    ∀ {fuel fuel' start : Nat}, stop - start ≤ fuel → stop - start ≤ fuel' →
      tilingWith fuel start stop = tilingWith fuel' start stop
  | 0, fuel', start, h, _ => by
    rw [tilingWith_of_le _ (by omega), tilingWith_of_le _ (by omega)]
  | fuel + 1, 0, start, _, h => by
    rw [tilingWith_of_le _ (by omega), tilingWith_of_le _ (by omega)]
  | fuel + 1, fuel' + 1, start, h, h' => by
    rw [tilingWith, tilingWith]
    split
    · next hlt =>
      obtain ⟨k, hblock, -⟩ := firstBlock_spec hlt
      have hpos := Nat.two_pow_pos k
      rw [hblock]
      dsimp only
      rw [tilingWith_congr (by omega : _ ≤ fuel) (by omega : _ ≤ fuel')]
    · rfl

/-! ## Blocks in blocks -/

/-- Blocks that start in an aligned block can be cut where it ends. -/
theorem Tiles.cut {a : Nat} (h : Tiles n bs m) (ha : 2 ^ k ∣ a) (hlow : a < n)
    (hhigh : n ≤ a + 2 ^ k) (hm : a + 2 ^ k ≤ m) :
    ∃ front back, bs = front ++ back ∧ Tiles (a + 2 ^ k) back m := by
  induction h with
  | nil =>
    obtain rfl : a + 2 ^ k = _ := le_antisymm hm hhigh
    exact ⟨[], [], rfl, .nil⟩
  | @cons n m j i bs hn h ih =>
    by_cases hlast : n = a + 2 ^ k
    · exact ⟨[], _, rfl, hlast ▸ .cons hn h⟩
    · have hdvd : 2 ^ j ∣ n := ⟨i, hn.trans (Nat.mul_comm _ _)⟩
      have hend : 2 ^ k ∣ a + 2 ^ k := Nat.dvd_add_self_right.mpr ha
      have hjk : j ≤ k := by
        -- A larger block would start where the aligned block does.
        by_contra hlarger
        have hdvd' : 2 ^ k ∣ n := (pow_dvd_pow 2 (Nat.le_of_not_le hlarger)).trans hdvd
        have := Nat.le_of_lt_add_of_dvd (by omega : n < a + 2 ^ k) hdvd' ha
        omega
      have hinside : n + 2 ^ j ≤ a + 2 ^ k :=
        Nat.le_of_lt_add_of_dvd (by omega) (Nat.dvd_add_self_right.mpr hdvd)
          ((pow_dvd_pow 2 hjk).trans hend)
      have hnext := succ_mul_eq_add hn
      obtain ⟨front, back, rfl, hback⟩ := ih (by omega) (by omega) hm
      exact ⟨_ :: front, back, rfl, hback⟩

/-- **No blocks that cover a range are fewer than those of its tiling.** -/
theorem length_tilingWith_le_of_tiles :
    ∀ (fuel : Nat) {start : Nat} {bs : List Block}, stop - start < 2 ^ maxHeight →
      Tiles start bs stop → (tilingWith fuel start stop).length ≤ bs.length
  | 0, _, _, _, _ => Nat.zero_le _
  | fuel + 1, start, bs, hmax, h => by
    rw [tilingWith]
    split
    · next hlt =>
      obtain ⟨k, hblock, hdvd, hfit, hgreatest⟩ := firstBlock_spec hlt
      rw [hblock]
      dsimp only
      cases h with
      | nil => exact absurd hlt (Nat.lt_irrefl _)
      | @cons _ _ j i bs hn h =>
        rw [succ_mul_eq_add hn] at h
        have hj : j < maxHeight :=
          (Nat.pow_lt_pow_iff_right (a := 2) (by decide)).mp (by have := h.le; omega)
        have hjk : j ≤ k := hgreatest j hj ⟨i, hn.trans (Nat.mul_comm _ _)⟩ h.le
        have hpow := Nat.pow_le_pow_right (n := 2) (by decide) hjk
        obtain ⟨front, back, rfl, hback⟩ := h.cut hdvd
          (Nat.lt_add_of_pos_right (Nat.two_pow_pos j)) (by omega) hfit
        have ih := length_tilingWith_le_of_tiles fuel (by omega) hback
        rw [List.length_cons, List.length_cons, List.length_append]
        omega
    · exact Nat.zero_le _

/-! ## Outcomes -/

/-- What covering a range of leaves with blocks comes to. -/
structure TilingOutcome (start stop : Nat) : Prop where
  /-- In words, looking for the first block does not stop. -/
  firstWords : Guarded.firstBlock start stop = .of (firstBlock? start stop)
  /-- There is a first block unless the range is empty, which is then told. -/
  refused : ∀ e, firstBlock? start stop = .error e ↔
    stop ≤ start ∧ e = .invalidSubtreeRange start stop
  /-- In words, no sum leaves its word and no block is missing on the way. The rounds end by
  themselves: any number of them that is large enough gives the same blocks. -/
  words : ∀ fuel, stop - start ≤ fuel →
    Guarded.tiling fuel start stop = .of (.ok (tiling start stop))
  /-- The blocks lie end to end and reach the end. -/
  covers : start ≤ stop → endOf start (tiling start stop) = stop
  /-- Every block is aligned where it stands and is as large as it can be. -/
  maximal : ∀ before b after, tiling start stop = before ++ b :: after →
    b.Maximal (endOf start before) stop
  /-- No aligned blocks of any sizes cover a range of less than `2 ^ 53` leaves and are fewer. -/
  shortest : stop - start < 2 ^ maxHeight → ∀ bs, Tiles start bs stop →
    (tiling start stop).length ≤ bs.length

theorem tilingOutcome {start stop : Nat} (h : stop < UInt64.size) : TilingOutcome start stop where
  firstWords := Guarded.firstBlock_eq h
  refused e := by
    unfold firstBlock?
    split
    · next hle => simp [hle, eq_comm]
    · next hlt => simp [hlt]
  words fuel hfuel := by
    rw [Guarded.tiling_eq h, tilingWith_congr hfuel le_rfl]
    rfl
  covers hle := (tiles_tiling hle).endOf_eq
  maximal before b after htiling := by
    obtain ⟨hlt, rfl⟩ := firstBlock_of_tilingWith htiling
    exact firstBlock_maximal hlt
  shortest hmax bs hbs := length_tilingWith_le_of_tiles _ hmax hbs

/-- **A tiling covers its range with maximal blocks, and no blocks that do are fewer.** For any two
words, the search for blocks ends without a step that leaves its word; between leaves in order the blocks
lie end to end from the first leaf to the last, each of them a power of two that divides its place and
with no larger one in its place up to the greatest height; and a range that is shorter than twice the
largest block is covered by no fewer aligned blocks. A first block is refused for an empty range and for
no other. -/
theorem tiling_shortest (start stop : UInt64) : TilingOutcome start.toNat stop.toNat :=
  tilingOutcome stop.toNat_lt

end Trustless.Merkle
