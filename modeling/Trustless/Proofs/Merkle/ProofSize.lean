import Trustless.Proofs.Merkle.Verification

/-!
# How long a proof is

The blocks on both sides of a range are taken greedily. From the first leaf on, every power of two
that still fits is aligned, so that the blocks fall in size and are the bits of the number of leaves
before the range. Up to the end of the sector, every power of two at which the next leaf is aligned
still fits, so that the blocks grow in size and are the bits of the number of leaves behind it.

* `firstBlock_greatest`: no block that is aligned and fits is larger than the one that is taken.
* `Tiles.length_eq`: blocks of different sizes are the bits of the number of leaves they cover.
* `tilingWith_falling`, `tilingWith_rising`: the two directions.
* `proofSize_eq`: a proof has a hash for every bit of either number.
-/

namespace Trustless

namespace Merkle

variable {start stop n m k : Nat} {bs : List Block}

/-! ## The largest block -/

/-- The search for a height passes every height at which the start is aligned. -/
theorem lt_alignedHeight (start : Nat) :
    ∀ (tries k : Nat) {d : Nat}, 2 ^ d ∣ start → d ≤ k + tries →
      d < alignedHeight start tries (k + 1)
  | 0, k, d, _, hd => Nat.lt_succ_of_le hd
  | tries + 1, k, d, hdvd, hd => by
    rw [alignedHeight]
    split
    · exact lt_alignedHeight start tries (k + 1) hdvd (by omega)
    · next hmod =>
      -- The search stops at a height that is not aligned, so that `d` is below it.
      by_contra hle
      refine hmod (Nat.mod_eq_zero_of_dvd ?_)
      rw [Nat.one_shiftLeft]
      exact dvd_trans (pow_dvd_pow 2 (by omega)) hdvd

/-- **No block that is aligned and fits is larger than the first one**, up to the greatest height
there is. -/
theorem firstBlock_greatest {d : Nat} (hmax : d < maxHeight) (hdvd : 2 ^ d ∣ start)
    (hfit : start + 2 ^ d ≤ stop) : d < (firstBlock start stop).height := by
  have hpos := Nat.two_pow_pos d
  have haligned := lt_alignedHeight start (maxHeight - 1) 0 hdvd (by unfold maxHeight at *; omega)
  have hlog : d ≤ (stop - start).log2 := (Nat.le_log2 (by omega)).mpr (by omega)
  exact lt_min haligned (Nat.lt_succ_of_le hlog)

/-- Everything about the first block. -/
theorem firstBlock_spec (h : start < stop) :
    ∃ k, firstBlock start stop = ⟨k + 1, 2 ^ k⟩ ∧ 2 ^ k ∣ start ∧ start + 2 ^ k ≤ stop ∧
      ∀ d, d < maxHeight → 2 ^ d ∣ start → start + 2 ^ d ≤ stop → d ≤ k := by
  obtain ⟨k, i, hblock, hstart, hstop⟩ := firstBlock_eq h
  refine ⟨k, hblock, ⟨i, hstart.trans (Nat.mul_comm _ _)⟩, ?_, fun d hmax hdvd hfit => ?_⟩
  · rw [hstart, ← Nat.succ_mul]
    exact hstop
  · have hlt := firstBlock_greatest hmax hdvd hfit
    rw [hblock] at hlt
    exact Nat.le_of_lt_succ hlt

/-! ## Blocks of different sizes -/

theorem Tiles.mem (h : Tiles n bs m) {b : Block} (hb : b ∈ bs) :
    ∃ k, b = ⟨k + 1, 2 ^ k⟩ ∧ n + 2 ^ k ≤ m := by
  induction h with
  | nil => exact absurd hb List.not_mem_nil
  | @cons n m k i bs hn h ih =>
    rw [succ_mul_eq_add hn] at h ih
    rcases List.mem_cons.mp hb with rfl | hb
    · exact ⟨k, rfl, h.le⟩
    · obtain ⟨j, hj, hle⟩ := ih hb
      exact ⟨j, hj, (Nat.add_le_add_right (Nat.le_add_right n _) _).trans hle⟩

/-- The blocks between two leaves cover all leaves in between. -/
theorem Tiles.sum_eq (h : Tiles n bs m) :
    (bs.map fun b => 2 ^ b.height).sum = 2 * (m - n) := by
  induction h with
  | nil => simp
  | @cons n m k i bs hn h ih =>
    have hle := h.le
    rw [succ_mul_eq_add hn] at hle ih
    rw [List.map_cons, List.sum_cons, ih, Nat.pow_succ]
    omega

/-- **Blocks of different sizes are the bits of the number of leaves that they cover.** -/
theorem Tiles.length_eq (h : Tiles n bs m) (hne : (bs.map Block.height).Nodup) :
    bs.length = popcount (m - n) := by
  have hcount := popcount_sum hne
  rw [List.map_map, List.length_map] at hcount
  rw [← popcount_two_mul, ← h.sum_eq]
  exact hcount.symm

/-! ## The two directions -/

/-- Where every power of two that fits is aligned, blocks fall in size. -/
theorem tilingWith_falling :
    ∀ (fuel : Nat) {start : Nat}, start ≤ stop → stop - start ≤ fuel →
      stop - start < 2 ^ maxHeight → (∀ d, 2 ^ d ≤ stop - start → 2 ^ d ∣ start) →
      (tilingWith fuel start stop).Pairwise fun a b => b.height < a.height
  | 0, _, _, _, _, _ => List.Pairwise.nil
  | fuel + 1, start, hle, hfuel, hmax, haligned => by
    rw [tilingWith]
    split
    · next hlt =>
      obtain ⟨k, hblock, hdvd, hfit, hgreatest⟩ := firstBlock_spec hlt
      have hpos := Nat.two_pow_pos k
      -- What is left is smaller than the block, or a larger one would have fit.
      have hrest : stop - (start + 2 ^ k) < 2 ^ k := by
        by_contra hge
        have hdouble : 2 ^ (k + 1) ≤ stop - start := by rw [Nat.pow_succ]; omega
        have hk : k + 1 < maxHeight :=
          (Nat.pow_lt_pow_iff_right (by decide)).mp (hdouble.trans_lt hmax)
        have := hgreatest (k + 1) hk (haligned _ hdouble) (by omega)
        omega
      have hbelow : ∀ {d}, 2 ^ d ≤ stop - (start + 2 ^ k) → d < k := fun hd =>
        (Nat.pow_lt_pow_iff_right (by decide)).mp (hd.trans_lt hrest)
      rw [hblock]
      dsimp only
      refine List.pairwise_cons.mpr ⟨fun b hb => ?_, ?_⟩
      · obtain ⟨j, rfl, hj⟩ := (tiles_tilingWith fuel hfit (by omega)).mem hb
        exact Nat.succ_lt_succ (hbelow (by omega))
      · refine tilingWith_falling fuel hfit (by omega) (by omega) fun d hd => ?_
        exact Nat.dvd_add (haligned d (by omega)) (pow_dvd_pow 2 (hbelow hd).le)
    · exact List.Pairwise.nil

/-- A leaf that is aligned at a power of two, and not at the next, is followed by one that is. -/
theorem two_pow_succ_dvd_add {j a : Nat} (h : 2 ^ j ∣ a) (hnot : ¬ 2 ^ (j + 1) ∣ a) :
    2 ^ (j + 1) ∣ a + 2 ^ j := by
  obtain ⟨i, rfl⟩ := h
  rcases Nat.even_or_odd' i with ⟨c, rfl | rfl⟩
  · exact absurd ⟨c, by ring⟩ hnot
  · exact ⟨c + 1, by ring⟩

/-- Up to a power of two, every smaller one at which a leaf is aligned fits. -/
theorem add_two_pow_le {d : Nat} (hd : d ≤ k) (hdvd : 2 ^ d ∣ start) (hlt : start < 2 ^ k) :
    start + 2 ^ d ≤ 2 ^ k := by
  have hpos := Nat.two_pow_pos d
  exact Nat.le_of_lt_add_of_dvd (by omega) (Nat.dvd_add_self_right.mpr hdvd) (pow_dvd_pow 2 hd)

/-- Up to a power of two, blocks grow in size. -/
theorem tilingWith_rising (hk : k < maxHeight) :
    ∀ (fuel : Nat) {start d : Nat}, start ≤ 2 ^ k → d ≤ k → 2 ^ d ∣ start →
      (∀ b ∈ tilingWith fuel start (2 ^ k), d < b.height) ∧
        (tilingWith fuel start (2 ^ k)).Pairwise fun a b => a.height < b.height
  | 0, _, _, _, _, _ => ⟨fun _ hb => absurd hb List.not_mem_nil, List.Pairwise.nil⟩
  | fuel + 1, start, d, hle, hd, hdvd => by
    rw [tilingWith]
    split
    · next hlt =>
      obtain ⟨j, hblock, hj, hfit, hgreatest⟩ := firstBlock_spec hlt
      have hdj : d ≤ j := hgreatest d (hd.trans_lt hk) hdvd (add_two_pow_le hd hdvd hlt)
      rw [hblock]
      dsimp only
      -- Everything behind the block is aligned at the next power of two, unless it is the last.
      have htail : (∀ b ∈ tilingWith fuel (start + 2 ^ j) (2 ^ k), j + 1 < b.height) ∧
          (tilingWith fuel (start + 2 ^ j) (2 ^ k)).Pairwise fun a b => a.height < b.height := by
        rcases hfit.lt_or_eq with hlt' | hlast
        · have hjk : j < k := (Nat.pow_lt_pow_iff_right (a := 2) (by decide)).mp (by omega)
          refine tilingWith_rising hk fuel hfit hjk (two_pow_succ_dvd_add hj fun hdvd' => ?_)
          have := hgreatest (j + 1) (by omega) hdvd' (add_two_pow_le hjk hdvd' hlt)
          omega
        · rw [hlast, tilingWith_of_le fuel le_rfl]
          exact ⟨fun _ hb => absurd hb List.not_mem_nil, List.Pairwise.nil⟩
      exact ⟨List.forall_mem_cons.mpr
          ⟨Nat.lt_succ_of_le hdj, fun b hb => hdj.trans_lt (Nat.lt_of_succ_lt (htail.1 b hb))⟩,
        List.pairwise_cons.mpr htail⟩
    · exact ⟨fun _ hb => absurd hb List.not_mem_nil, List.Pairwise.nil⟩

end Merkle

namespace RangeProof

open Merkle

variable {first last : Nat}

/-- There is a block before a range for every bit of the number of leaves before it. -/
theorem length_blocksBefore (h : first ≤ Sector.leaves) :
    (blocksBefore first).length = popcount first := by
  have hmax : first - 0 < 2 ^ maxHeight := by
    simp only [Sector.leaves, maxHeight] at *
    omega
  have hfall := tilingWith_falling (first - 0) (Nat.zero_le first) le_rfl hmax
    fun d _ => Nat.dvd_zero _
  have hnodup : ((blocksBefore first).map Block.height).Nodup :=
    List.pairwise_map.mpr (hfall.imp Nat.ne_of_gt)
  exact (tiles_tiling (Nat.zero_le first)).length_eq hnodup

/-- There is a block behind a range for every bit of the number of leaves behind it. -/
theorem length_blocksAfter (h : last ≤ Sector.leaves) :
    (blocksAfter last).length = popcount (Sector.leaves - last) := by
  have hrise := (tilingWith_rising (k := 16) (by decide) (Sector.leaves - last) (d := 0) h
    (Nat.zero_le _) (one_dvd last)).2
  have hnodup : ((blocksAfter last).map Block.height).Nodup :=
    List.pairwise_map.mpr (hrise.imp Nat.ne_of_lt)
  exact (tiles_tiling h).length_eq hnodup

/-- **A proof has a hash for every bit of the number of leaves before the range**, and of the number
of leaves behind it. -/
theorem proofSize_eq (hlt : first ≤ last) (hlast : last ≤ Sector.leaves) :
    proofSize first last = 32 * (popcount first + popcount (Sector.leaves - last)) := by
  rw [proofSize, length_blocksBefore (hlt.trans hlast), length_blocksAfter hlast]

end RangeProof

end Trustless
