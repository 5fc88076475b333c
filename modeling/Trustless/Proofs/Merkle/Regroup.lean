import Trustless.Guarded.Merkle
import Trustless.Proofs.Failure
import Trustless.Proofs.Guarded.Basic
import Trustless.Proofs.Merkle.Completeness
import Trustless.Proofs.Merkle.InPlace

/-!
# A tree is pushed like its leaves

Leaves that fill a perfect tree are joined among themselves before anything that stood there before
is looked at, since all trees below the height of theirs stand in front of it. Only the last leaf
completes their tree, and the joins that it goes on with are those of the whole tree. The argument
splits the leaves into halves: the first half leaves its tree in front of the row, and the second
half meets exactly that tree.

In words of 32 bits, a join that raises a height beyond its word stops the push. Heights only grow,
so that no push on the way to a row stops if the heights in that row are words.

* `push_of_lower`, `push_of_level`: the two pushes of which the argument is made.
* `pushLeaves_run`: the leaves of a run are pushed like the root of their tree.
* `run_of_pushLeaves`: leaves that are pushed in place.
* `Guarded.push_of_words`, `Guarded.pushLeaves_of_words`: pushes that do not stop.
* `run_chunks_eq_push_root`: all of it, for every forest that pushes leave.
-/

namespace Trustless

namespace Forest

variable {α : Type} {join : α → α → α} {t : Subtree α} {ts ts' : List (Subtree α)}
  {f f' : Forest α}

/-! ## One push -/

/-- A tree below all others stands in front of them. -/
theorem push_of_lower (h : ∀ top ∈ f.trees.head?, t.height < top.height) :
    f.push join t = .ok ⟨t :: f.trees⟩ := by
  obtain ⟨trees⟩ := f
  cases trees with
  | nil => rfl
  | cons top rest =>
    have hlt : t.height < top.height := h top rfl
    simp [push, pushTrees, hlt, Nat.not_lt_of_lt hlt, Except.map]

/-- A tree that meets one of its own height is joined with it. -/
theorem push_of_level (l r : α) (height : Nat) (ts : List (Subtree α)) :
    push join ⟨r, height⟩ ⟨⟨l, height⟩ :: ts⟩ = push join ⟨join l r, height + 1⟩ ⟨ts⟩ := by
  simp [push, pushTrees]

/-- No height that was there is lost: what is joined is part of something higher. -/
theorem exists_le_of_pushTrees (h : pushTrees join t ts = .ok ts') :
    ∀ s ∈ t :: ts, ∃ s' ∈ ts', s.height ≤ s'.height := by
  induction ts generalizing t with
  | nil =>
    cases h
    exact fun s hs => ⟨s, hs, le_rfl⟩
  | cons top rest ih =>
    rw [pushTrees] at h
    split at h
    · cases h
    · split at h
      · cases h
        exact fun s hs => ⟨s, hs, le_rfl⟩
      · obtain hlevel : t.height = top.height := by omega
        have hjoined := ih h
        intro s hs
        obtain rfl | rfl | hs := by simpa using hs
        · obtain ⟨s', hs', hle⟩ := hjoined _ List.mem_cons_self
          exact ⟨s', hs', Nat.le_of_succ_le hle⟩
        · obtain ⟨s', hs', hle⟩ := hjoined _ List.mem_cons_self
          exact ⟨s', hs', hlevel ▸ Nat.le_of_succ_le hle⟩
        · exact hjoined s (List.mem_cons_of_mem _ hs)

theorem pushTrees_of_push (h : f.push join t = .ok f') :
    pushTrees join t f.trees = .ok f'.trees := by
  rw [push] at h
  cases hpush : pushTrees join t f.trees with
  | error e => simp [hpush, Except.map] at h
  | ok trees =>
    rw [hpush] at h
    cases h
    rfl

end Forest

open Forest

namespace Hasher

variable {H : Hasher} {leaves : List ByteArray} {f f' : Forest Digest}

/-! ## The leaves of a tree -/

theorem pushLeaves_append (H : Hasher) (xs ys : List ByteArray) (f : Forest Digest) :
    H.pushLeaves (xs ++ ys) f = H.pushLeaves xs f >>= H.pushLeaves ys := by
  rw [pushLeaves, List.foldlM_append]
  rfl

/-- **The leaves of a run are pushed like the root of their tree**, onto any row that starts no
lower than that tree. -/
theorem pushLeaves_run (H : Hasher) (leaf : Nat → ByteArray) (k start : Nat) {f : Forest Digest}
    (hleaf : ∀ i, start ≤ i → i < start + 2 ^ k → (leaf i).size = Sector.leafSize)
    (htop : ∀ top ∈ f.trees.head?, k + 1 ≤ top.height) :
    H.pushLeaves ((List.range' start (2 ^ k)).map leaf) f
      = f.push H.node ⟨H.perfectRoot leaf k start, k + 1⟩ := by
  induction k generalizing start f with
  | zero =>
    have hsize := hleaf start le_rfl (by simp)
    simp [pushLeaves, pushLeaf, hsize, perfectRoot]
  | succ k ih =>
    have hhalves : 2 ^ (k + 1) = 2 ^ k + 2 ^ k := by ring
    have hfirst : f.push H.node ⟨H.perfectRoot leaf k start, k + 1⟩
        = .ok ⟨⟨H.perfectRoot leaf k start, k + 1⟩ :: f.trees⟩ :=
      push_of_lower htop
    rw [hhalves, ← List.range'_append_1, List.map_append, pushLeaves_append,
      ih start (fun i hlo hhi => hleaf i hlo (by omega)) fun top h => Nat.le_of_succ_le (htop top h),
      hfirst]
    -- The second half meets the tree of the first one, which is of its own height.
    have hsecond := ih (start + 2 ^ k) (f := ⟨⟨H.perfectRoot leaf k start, k + 1⟩ :: f.trees⟩)
      (fun i hlo hhi => hleaf i (by omega) (by omega)) (by simp)
    exact hsecond.trans (push_of_level _ _ _ _)

/-! ## Pushes in place -/

/-- Leaves that can be pushed are accepted in place, one after the other. -/
theorem run_of_pushLeaves (h : H.pushLeaves leaves f = .ok f') :
    H.run f (leaves.map .leaf) = (f', leaves.map .leaf) := by
  induction leaves generalizing f with
  | nil =>
    cases h
    rfl
  | cons b bs ih =>
    rw [pushLeaves, List.foldlM_cons] at h
    obtain ⟨g, hb, hbs⟩ := bind_eq_ok_iff.mp h
    have hplace : H.pushInPlace f (.leaf b) = (.ok (), g) := by
      have heq := (H.push_eq f (.leaf b)).symm.trans hb
      cases hverdict : (H.pushInPlace f (.leaf b)).1 with
      | error e => simp [hverdict, Except.map] at heq
      | ok u =>
        rw [hverdict] at heq
        exact Prod.ext hverdict (Except.ok.inj heq)
    rw [List.map_cons, run, hplace, ih hbs]
    rfl

end Hasher

/-! ## In words -/

namespace Guarded

variable {α : Type} {join : α → α → α} {t : Subtree α} {ts ts' : List (Subtree α)}
  {f f' : Forest α}

theorem pushTrees_of_words (h : Forest.pushTrees join t ts = .ok ts')
    (hwords : ∀ s ∈ ts', s.height < UInt32.size) :
    pushTrees join t ts = of (.ok ts') := by
  induction ts generalizing t with
  | nil =>
    cases h
    rfl
  | cons top rest ih =>
    rw [Forest.pushTrees] at h
    rw [pushTrees]
    by_cases htall : t.height > top.height
    · simp [htall] at h
    · rw [if_neg htall] at h ⊢
      by_cases hlow : t.height < top.height
      · rw [if_pos hlow] at h ⊢
        cases h
        rfl
      · rw [if_neg hlow] at h ⊢
        obtain ⟨s, hs, hle⟩ := exists_le_of_pushTrees h _ List.mem_cons_self
        rw [shortWord_of_lt (lt_of_le_of_lt hle (hwords s hs)), of_ok_bind]
        exact ih h

/-- **A push that leaves words as heights does not stop.** -/
theorem push_of_words (h : f.push join t = .ok f')
    (hwords : ∀ s ∈ f'.trees, s.height < UInt32.size) : push join t f = of (.ok f') := by
  rw [push, pushTrees_of_words (pushTrees_of_push h) hwords]
  rfl

/-- Nor does any push of leaves on the way to such a row. -/
theorem pushLeaves_of_words {H : Hasher} {leaves : List ByteArray} {f f' : Forest Digest}
    (h : H.pushLeaves leaves f = .ok f') (hwords : ∀ s ∈ f'.trees, s.height < UInt32.size) :
    pushLeaves H leaves f = of (.ok f') ∧ ∀ s ∈ f.trees, s.height < UInt32.size := by
  induction leaves generalizing f with
  | nil =>
    cases h
    exact ⟨rfl, hwords⟩
  | cons b bs ih =>
    rw [Hasher.pushLeaves, List.foldlM_cons] at h
    obtain ⟨g, hb, hbs⟩ := bind_eq_ok_iff.mp h
    obtain ⟨hrest, hg⟩ := ih hbs
    rw [Hasher.pushLeaf] at hb
    split at hb
    · rename_i hsize
      refine ⟨?_, fun s hs => ?_⟩
      · rw [pushLeaves, if_neg (not_not.mpr hsize), push_of_words hb hg, of_ok_bind]
        exact hrest
      · obtain ⟨s', hs', hle⟩ :=
          exists_le_of_pushTrees (pushTrees_of_push hb) s (List.mem_cons_of_mem _ hs)
        exact lt_of_le_of_lt hle (hg s' hs')
    · cases hb

end Guarded

/-! ## Leaves and the root of their block -/

namespace Hasher

/-- A row that starts no lower than a tree takes it. -/
theorem exists_push (H : Hasher) {f : Forest Digest} {h : Nat} (hf : Ordered f.trees)
    (htop : ∀ top ∈ f.trees.head?, h ≤ top.height) (root : Digest) :
    ∃ f', H.pushInPlace f (.subtree root h) = (.ok (), f') ∧
      f.push H.node ⟨root, h⟩ = .ok f' := by
  rcases H.pushInPlace_cases hf (.subtree root h) with ⟨e, hrefused, -⟩ | ⟨-, f', hplace, -⟩
  · cases hrefused with
    | tooTall _ htrees htall =>
      exact absurd htall (Nat.not_lt_of_le (htop _ (by simp [htrees])))
  · refine ⟨f', hplace, ?_⟩
    have heq := H.push_eq f (.subtree root h)
    rw [hplace] at heq
    exact heq

/-- There is a root as soon as something was pushed. -/
theorem exists_root_of_push {H : Hasher} {t : Subtree Digest} {f f' : Forest Digest}
    (h : f.push H.node t = .ok f') : ∃ root, f'.root H.node = .ok root := by
  obtain ⟨s, hs, -⟩ := exists_le_of_pushTrees (pushTrees_of_push h) t List.mem_cons_self
  cases hroot : f'.root H.node with
  | ok root => exact ⟨root, rfl⟩
  | error e =>
    rw [(root_eq_error_iff.mp hroot).1] at hs
    exact absurd hs List.not_mem_nil

/-- **A block is pushed as its leaves or as its root**, with the same forest as a result. Whatever
was pushed before, and however much of that was refused: onto a forest without trees, or of which
the newest tree is no lower than the tree over the block, the leaves of the block are all accepted
one after the other, its root is accepted at the height of that tree, and both leave one forest,
which has a root. In words of 32 bits neither of the two stops, unless a join leads out of them. -/
theorem run_chunks_eq_push_root (H : Hasher) (ps : List Piece) {h : Nat} {block : ByteArray}
    (hh : 1 ≤ h) (hblock : block.size = 2 ^ (h - 1) * Sector.leafSize)
    (htop : ∀ top ∈ (H.run .empty ps).1.trees.head?, h ≤ top.height) :
    ∃ root f r, H.merkleRoot block = .ok root ∧
      H.run (H.run .empty ps).1 ((Bytes.chunks block Sector.leafSize).map .leaf)
        = (f, (Bytes.chunks block Sector.leafSize).map .leaf) ∧
      H.pushInPlace (H.run .empty ps).1 (.subtree root h) = (.ok (), f) ∧
      f.root H.node = .ok r ∧
      ((∀ s ∈ f.trees, s.height < UInt32.size) →
        Guarded.pushLeaves H (Bytes.chunks block Sector.leafSize) (H.run .empty ps).1
            = Guarded.of (.ok f) ∧
          Guarded.push H.node ⟨root, h⟩ (H.run .empty ps).1 = Guarded.of (.ok f)) := by
  obtain ⟨k, rfl⟩ := Nat.exists_eq_add_of_le' hh
  rw [Nat.add_sub_cancel] at hblock
  obtain ⟨hordered, -⟩ := H.run_spec (f := .empty) List.Pairwise.nil ps
  generalize (H.run .empty ps).1 = f₀ at htop hordered ⊢
  obtain ⟨f, hplace, hpush⟩ :=
    H.exists_push hordered htop (H.perfectRoot (Bytes.chunk block Sector.leafSize) k 0)
  have hchunks : Bytes.chunks block Sector.leafSize
      = (List.range' 0 (2 ^ k)).map (Bytes.chunk block Sector.leafSize) := by
    rw [Bytes.chunks, hblock, Nat.mul_div_cancel _ (by decide), List.range_eq_range']
  have hleaves : H.pushLeaves (Bytes.chunks block Sector.leafSize) f₀ = .ok f := by
    rw [hchunks, H.pushLeaves_run _ k 0 (fun i _ hi => ?_) htop, hpush]
    refine Bytes.size_of_mem_chunks (b := block) ?_
    rw [hchunks]
    exact List.mem_map_of_mem (by simpa using hi)
  obtain ⟨r, hr⟩ := exists_root_of_push hpush
  exact ⟨_, f, r, H.merkleRoot_eq_perfectRoot hblock, run_of_pushLeaves hleaves, hplace, hr,
    fun hwords => ⟨(Guarded.pushLeaves_of_words hleaves hwords).1,
      Guarded.push_of_words hpush hwords⟩⟩

/-- Two leaves behind trees of heights three and two are joined twice, like the root over them. -/
theorem run_chunks_eq_push_root_carry :
    ∃ root f, blake2b.merkleRoot (Bytes.zeros 128) = .ok root ∧
      f = (⟨[⟨blake2b.node (.zero 32) (blake2b.node (.zero 32) root), 4⟩]⟩ : Forest Digest) ∧
      blake2b.run ⟨[⟨.zero 32, 2⟩, ⟨.zero 32, 3⟩]⟩
          ((Bytes.chunks (Bytes.zeros 128) Sector.leafSize).map .leaf)
        = (f, (Bytes.chunks (Bytes.zeros 128) Sector.leafSize).map .leaf) ∧
      blake2b.pushInPlace ⟨[⟨.zero 32, 2⟩, ⟨.zero 32, 3⟩]⟩ (.subtree root 2) = (.ok (), f) ∧
      Guarded.push blake2b.node ⟨root, 2⟩ ⟨[⟨.zero 32, 2⟩, ⟨.zero 32, 3⟩]⟩
        = Guarded.of (.ok f) := by
  have hblock : (Bytes.zeros 128).size = 2 ^ (2 - 1) * Sector.leafSize := by simp [Sector.leafSize]
  obtain ⟨root, f, r, hroot, hrun, hplace, -, hwords⟩ :=
    run_chunks_eq_push_root blake2b [.subtree (.zero 32) 3, .subtree (.zero 32) 2]
      (by decide) hblock (by rintro top ⟨⟩; exact le_rfl)
  obtain rfl : _ = f := (Prod.ext_iff.mp hplace).2
  refine ⟨root, _, hroot, rfl, hrun, hplace, (hwords ?_).2⟩
  intro s hs
  obtain rfl := List.mem_singleton.mp hs
  show 4 < UInt32.size
  decide

end Hasher

end Trustless
