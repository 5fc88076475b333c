import Mathlib.Tactic.Ring
import Trustless.Merkle.Tiling

/-!
# The blocks of a tiling lie end to end

`tiling` takes the tallest aligned block that fits, again and again. What follows only needs that
every block is aligned and that they leave no gap.

* `Tiles n bs m`: aligned blocks that lead from leaf `n` to leaf `m`.
* `firstBlock_eq`: the block that is taken is aligned and fits.
* `tiles_tiling`: a tiling leads from its start to its end.
-/

namespace Trustless.Merkle

/-- The leaf behind an aligned block. -/
theorem succ_mul_eq_add {n i k : Nat} (hn : n = i * 2 ^ k) : (i + 1) * 2 ^ k = n + 2 ^ k := by
  rw [hn, Nat.succ_mul]

/-- Aligned blocks that lead from leaf `n` to leaf `m`. -/
inductive Tiles : Nat → List Block → Nat → Prop
  | nil {n : Nat} : Tiles n [] n
  | cons {n m k i : Nat} {bs : List Block} (hn : n = i * 2 ^ k)
      (h : Tiles ((i + 1) * 2 ^ k) bs m) : Tiles n (⟨k + 1, 2 ^ k⟩ :: bs) m

theorem Tiles.le {n m : Nat} {bs : List Block} (h : Tiles n bs m) : n ≤ m := by
  induction h with
  | nil => exact le_rfl
  | cons hn _ ih =>
    rw [hn]
    exact le_trans (Nat.mul_le_mul_right _ (Nat.le_succ _)) ih

theorem Block.ofHeight_succ (k : Nat) : Block.ofHeight (k + 1) = ⟨k + 1, 2 ^ k⟩ := by
  rw [Block.ofHeight, Nat.add_sub_cancel, Nat.one_shiftLeft]

/-- The search for a height only passes heights at which the start is aligned. -/
theorem alignedHeight_eq (start : Nat) :
    ∀ (tries k : Nat), 2 ^ k ∣ start →
      ∃ j, alignedHeight start tries (k + 1) = j + 1 ∧ 2 ^ j ∣ start
  | 0, k, h => ⟨k, rfl, h⟩
  | tries + 1, k, h => by
    rw [alignedHeight]
    split
    · next hmod =>
      rw [Nat.one_shiftLeft] at hmod
      exact alignedHeight_eq start tries (k + 1) (Nat.dvd_of_mod_eq_zero hmod)
    · exact ⟨k, rfl, h⟩

/-- **The first block is aligned and fits.** -/
theorem firstBlock_eq {start stop : Nat} (h : start < stop) :
    ∃ k i, firstBlock start stop = ⟨k + 1, 2 ^ k⟩ ∧ start = i * 2 ^ k ∧ (i + 1) * 2 ^ k ≤ stop := by
  have hone : 2 ^ 0 ∣ start := one_dvd start
  obtain ⟨j, hj, hdvd⟩ := alignedHeight_eq start (maxHeight - 1) 0 hone
  have hfit : 2 ^ min j (stop - start).log2 ≤ stop - start :=
    le_trans (Nat.pow_le_pow_right (by omega) (Nat.min_le_right _ _))
      (Nat.log2_self_le (by omega))
  obtain ⟨i, hi⟩ := dvd_trans (pow_dvd_pow 2 (Nat.min_le_left j (stop - start).log2)) hdvd
  refine ⟨min j (stop - start).log2, i, ?_, by rw [Nat.mul_comm]; exact hi, ?_⟩
  · rw [firstBlock, hj, Nat.add_min_add_right, Block.ofHeight_succ]
  · rw [Nat.succ_mul, Nat.mul_comm, ← hi]
    omega

theorem tilingWith_of_le {start stop : Nat} (fuel : Nat) (h : stop ≤ start) :
    tilingWith fuel start stop = [] := by
  cases fuel with
  | zero => rfl
  | succ fuel => rw [tilingWith, if_neg (Nat.not_lt_of_le h)]

theorem tiles_tilingWith :
    ∀ (fuel : Nat) {start stop : Nat}, start ≤ stop → stop - start ≤ fuel →
      Tiles start (tilingWith fuel start stop) stop
  | 0, start, stop, hle, hfuel => by
    obtain rfl : start = stop := by omega
    exact .nil
  | fuel + 1, start, stop, hle, hfuel => by
    rw [tilingWith]
    split
    · next hlt =>
      obtain ⟨k, i, hblock, hstart, hstop⟩ := firstBlock_eq hlt
      have hpos := Nat.two_pow_pos k
      have hnext := succ_mul_eq_add hstart
      rw [hblock]
      refine .cons hstart ?_
      dsimp only
      rw [← hnext]
      exact tiles_tilingWith fuel hstop (by omega)
    · obtain rfl : start = stop := by omega
      exact .nil

/-- **A tiling leads from its start to its end.** -/
theorem tiles_tiling {start stop : Nat} (h : start ≤ stop) :
    Tiles start (tiling start stop) stop :=
  tiles_tilingWith _ h le_rfl

end Trustless.Merkle
