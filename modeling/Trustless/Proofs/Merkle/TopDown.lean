import Mathlib.Order.Bounds.Basic
import Trustless.Proofs.Merkle.Completeness
import Trustless.Proofs.Merkle.Root

/-!
# The root of any number of leaves, from the top down

A forest computes the root of data from left to right and never looks ahead. The same root can be
told from the top: the greatest power of two below the number of leaves goes to the left, and the
rest to the right. The trees of a forest are the left halves of that recursion, the tallest one
first, so that joining them from the newest to the oldest goes up through it again.

* `split`: where the leaves are split.
* `Hasher.topDownRoot`: the root by recursion over the number of leaves.
* `topDownRoot_two_pow`: for a power of two it is the root of the perfect tree.
* `Stands.root_foldl`: what joining the trees of a row comes to.
* `merkleRoot_eq_topDownRoot`: the forest computes that root.
* `merkleRoot_topDown`: what it computes for any data.
-/

namespace Trustless

/-! ## Where leaves are split -/

/-- The greatest power of two below a number of at least two. -/
def split (n : Nat) : Nat :=
  2 ^ (n - 1).log2

theorem split_pos (n : Nat) : 0 < split n :=
  Nat.two_pow_pos _

theorem split_lt {n : Nat} (h : 2 ≤ n) : split n < n := by
  have hle : split n ≤ n - 1 := Nat.log2_self_le (by omega)
  omega

/-- Nothing between the split and the number is a power of two. -/
theorem isGreatest_split {n : Nat} (h : 2 ≤ n) :
    IsGreatest {m | m < n ∧ ∃ k, m = 2 ^ k} (split n) := by
  refine ⟨⟨split_lt h, _, rfl⟩, ?_⟩
  rintro _ ⟨hlt, k, rfl⟩
  have hk : k ≤ (n - 1).log2 := (Nat.le_log2 (by omega)).mpr (by omega)
  exact Nat.pow_le_pow_right (by decide) hk

/-- A power of two and at most as much again is split behind the power. -/
theorem split_add {k r : Nat} (hpos : 0 < r) (hr : r ≤ 2 ^ k) : split (2 ^ k + r) = 2 ^ k := by
  have hk := Nat.two_pow_pos k
  refine (isGreatest_split (by omega)).unique ⟨⟨by omega, k, rfl⟩, ?_⟩
  rintro _ ⟨hlt, j, rfl⟩
  have hnext : 2 ^ j < 2 ^ (k + 1) := by rw [Nat.pow_succ]; omega
  exact Nat.pow_le_pow_right (by decide)
    (Nat.le_of_lt_succ ((Nat.pow_lt_pow_iff_right (by decide)).mp hnext))

namespace Hasher

variable (H : Hasher) (leaf : Nat → ByteArray)

/-- The root over the `n` leaves from `start` on: the hash of a single leaf, or of the roots on both
sides of the split. -/
def topDownRoot (start n : Nat) : Digest :=
  if n ≤ 1 then H.leaf (leaf start)
  else H.node (topDownRoot start (split n)) (topDownRoot (start + split n) (n - split n))
termination_by n
decreasing_by
  · exact split_lt (by omega)
  · have := split_pos n
    omega

theorem topDownRoot_one (start : Nat) : H.topDownRoot leaf start 1 = H.leaf (leaf start) := by
  rw [topDownRoot, if_pos le_rfl]

/-- A perfect tree on the left, and at most as much again on the right. -/
theorem topDownRoot_add (start : Nat) {k r : Nat} (hpos : 0 < r) (hr : r ≤ 2 ^ k) :
    H.topDownRoot leaf start (2 ^ k + r)
      = H.node (H.topDownRoot leaf start (2 ^ k)) (H.topDownRoot leaf (start + 2 ^ k) r) := by
  have hk := Nat.two_pow_pos k
  rw [topDownRoot, if_neg (by omega), split_add hpos hr, Nat.add_sub_cancel_left]

theorem topDownRoot_two_pow (k start : Nat) :
    H.topDownRoot leaf start (2 ^ k) = H.perfectRoot leaf k start := by
  induction k generalizing start with
  | zero => exact H.topDownRoot_one leaf start
  | succ k ih =>
    have hpow : 2 ^ (k + 1) = 2 ^ k + 2 ^ k := by ring
    rw [hpow, H.topDownRoot_add leaf start (Nat.two_pow_pos k) le_rfl, ih, ih, perfectRoot]

end Hasher

/-! ## Joining the trees of a row -/

variable {H : Hasher} {leaf : Nat → ByteArray}

/-- What is newer than a row is joined to it from right to left: over leaves that are fewer than
those of the newest tree, or as many, this goes up through the recursion. -/
theorem Forest.Stands.root_foldl {m : Nat} {ts : List (Subtree HashTree)}
    (h : Stands (H.Honest leaf) m ts) :
    ∀ {acc : HashTree} {i k r : Nat}, m = i * 2 ^ k → 0 < r → r ≤ 2 ^ k →
      acc.root H = H.topDownRoot leaf m r →
      (ts.foldl (fun acc t => .node t.root acc) acc).root H = H.topDownRoot leaf 0 (m + r) := by
  induction h with
  | nil =>
    intro acc i k r _ _ _ hacc
    rw [Nat.zero_add]
    exact hacc
  | @cons m j a t ts hm ht _ ih =>
    intro acc i k r hplace hpos hr hacc
    -- The row ends at an odd place of its newest tree, so that the tree is no smaller than `2 ^ k`.
    have hkj : k ≤ j := le_of_mul_two_pow_eq (hplace.symm.trans hm)
    have hrj : r ≤ 2 ^ j := hr.trans (Nat.pow_le_pow_right (by decide) hkj)
    have hend : m = 2 * a * 2 ^ j + 2 ^ j := by rw [hm]; ring
    have hnext : m + r = 2 * a * 2 ^ j + (2 ^ j + r) := by omega
    have hdouble : 2 ^ (j + 1) = 2 ^ j + 2 ^ j := by ring
    rw [List.foldl_cons, hnext]
    refine ih (i := a) (k := j + 1) (by ring) (by omega) (by omega) ?_
    show H.node (t.root H) (acc.root H) = _
    rw [hacc, ht, H.topDownRoot_add leaf _ hpos hrj, H.topDownRoot_two_pow, hend]

/-- The root of a row that covers leaves is the one by recursion. -/
theorem Forest.Stands.root_eq {n : Nat} {f : Forest HashTree}
    (h : Stands (H.Honest leaf) n f.trees) (hn : 0 < n) :
    ∃ t, f.root .node = .ok t ∧ t.root H = H.topDownRoot leaf 0 n := by
  obtain ⟨trees⟩ := f
  cases h with
  | nil => exact absurd hn (Nat.lt_irrefl 0)
  | @cons _ k i t ts hm ht hts =>
    refine ⟨_, rfl, ?_⟩
    have hend : n = 2 * i * 2 ^ k + 2 ^ k := by rw [hm]; ring
    rw [hend]
    refine hts.root_foldl rfl (Nat.two_pow_pos k) le_rfl ?_
    rw [H.topDownRoot_two_pow]
    exact ht

namespace Hasher

variable {data : ByteArray}

/-- The leaves of data lie where they stand in it. -/
theorem laid_chunks (H : Hasher) (data : ByteArray) :
    Forest.Laid (Honest H (Bytes.chunk data Sector.leafSize)) 0
      (HashTree.ofLeaves (Bytes.chunks data Sector.leafSize)) (data.size / Sector.leafSize) := by
  have hlaid := HashTree.laid_ofLeaves (P := Honest H (Bytes.chunk data Sector.leafSize))
    (Bytes.chunk data Sector.leafSize) (data.size / Sector.leafSize) 0 fun i _ _ => by
      rw [Honest, perfectRoot, pow_zero, Nat.mul_one]
      rfl
  rwa [Nat.zero_add, ← List.range_eq_range'] at hlaid

/-- **The forest of leaves computes the root by recursion**, for every number of leaves. -/
theorem merkleRoot_eq_topDownRoot (H : Hasher) {n : Nat} (hn : 0 < n)
    (h : data.size = n * Sector.leafSize) :
    H.merkleRoot data = .ok (H.topDownRoot (Bytes.chunk data Sector.leafSize) 0 n) := by
  have hcount : data.size / Sector.leafSize = n := by
    rw [h]
    exact Nat.mul_div_cancel n (by decide)
  have hlaid := H.laid_chunks data
  rw [hcount] at hlaid
  obtain ⟨f, hpush, hstands⟩ := Forest.Stands.pushAll (H.joins_honest _) hlaid (f := .empty) .nil
  obtain ⟨t, ht, hroot⟩ := hstands.root_eq hn
  refine merkleRoot_eq_ok_iff.mpr ⟨by rw [h]; exact Nat.mul_mod_left _ _, t, ?_, hroot⟩
  rw [HashTree.ofData, Forest.joined, hpush]
  exact ht

/-- **What the root of data is**, for every hash function: with at least one leaf and nothing left
over it is the root by recursion, with something left over it is refused for its length, and without
any leaf for being empty. -/
theorem merkleRoot_topDown (H : Hasher) (data : ByteArray) :
    (∀ root, H.merkleRoot data = .ok root ↔
      ∃ n, data.size = (n + 1) * Sector.leafSize ∧
        root = H.topDownRoot (Bytes.chunk data Sector.leafSize) 0 (n + 1)) ∧
    ∀ e, H.merkleRoot data = .error e ↔
      data.size % Sector.leafSize ≠ 0 ∧ e = .dataNotAligned data.size ∨
        data.size = 0 ∧ e = .emptyStack := by
  by_cases hsize : data.size % Sector.leafSize = 0
  · by_cases hempty : data.size = 0
    · obtain rfl := ByteArray.size_eq_zero_iff.mp hempty
      refine ⟨fun root => ⟨?_, ?_⟩, fun e => ?_⟩
      · rintro ⟨⟩
      · rintro ⟨n, hn, -⟩
        rw [hempty] at hn
        exact absurd hn.symm (Nat.mul_pos n.succ_pos (by decide)).ne'
      · rw [show H.merkleRoot .empty = .error .emptyStack from rfl, Except.error.injEq]
        exact ⟨fun h => .inr ⟨rfl, h.symm⟩, fun h => (h.resolve_left fun h => h.1 rfl).2.symm⟩
    · obtain ⟨n, hn⟩ : ∃ n, data.size = (n + 1) * Sector.leafSize := by
        obtain ⟨n, hn⟩ := Nat.dvd_of_mod_eq_zero hsize
        cases n with
        | zero => exact absurd hn hempty
        | succ n => exact ⟨n, hn.trans (Nat.mul_comm _ _)⟩
      rw [H.merkleRoot_eq_topDownRoot n.succ_pos hn]
      refine ⟨fun root => ⟨fun h => ⟨n, hn, (Except.ok.inj h).symm⟩, ?_⟩, fun e => ⟨?_, ?_⟩⟩
      · rintro ⟨m, hm, rfl⟩
        obtain rfl : n = m :=
          Nat.succ.inj (Nat.eq_of_mul_eq_mul_right (by decide) (hn.symm.trans hm))
        rfl
      · rintro ⟨⟩
      · exact fun h => h.elim (fun h => absurd hsize h.1) fun h => absurd h.1 hempty
  · rw [merkleRoot, if_pos hsize]
    refine ⟨fun root => ⟨?_, ?_⟩, fun e => ?_⟩
    · rintro ⟨⟩
    · rintro ⟨n, hn, -⟩
      exact absurd (hn ▸ Nat.mul_mod_left _ _) hsize
    · rw [Except.error.injEq]
      refine ⟨fun h => .inl ⟨hsize, h.symm⟩, fun h => (h.resolve_right fun h => hsize ?_).2.symm⟩
      rw [h.1]
      rfl

end Hasher

end Trustless
