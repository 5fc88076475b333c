import Mathlib.Data.Nat.BitIndices
import Mathlib.Tactic.Ring
import Trustless.Merkle.Forest

/-!
# What a row of perfect trees stands for

A row that was pushed tree by tree covers the leaves from the first one on, with one perfect tree
for every set bit of their number. Nothing about this depends on what is kept of a tree, so the facts
here are about any property of trees that joining hands on.

* `popcount`, `popcount_sum`: the bits of a number, as any powers of two without repetition that it is
  the sum of.
* `Stands P n ts`: the trees `ts`, newest first, cover the leaves below `n`, each with `P` at its
  place.
* `Laid P n ts m`: the trees `ts`, oldest first, continue a row from leaf `n` to leaf `m`.
* `Stands.push`, `Stands.pushAll`: a tree that starts where the row ends is never too tall, and the
  row covers its leaves as well.
* `joined_of_laid`: trees that cover `2 ^ k` leaves are joined to a single tree of height `k + 1`.
* `joined_map`: the same pushes on two kinds of trees give the same tree.
* `joined_parts`: a joined tree holds what its trees hold, in their order.
-/

namespace Trustless

/-! ## The bits of a number -/

/-- How many bits of a number are set. -/
def popcount (n : Nat) : Nat :=
  n.bitIndices.length

/-- **The powers of a sum without repetition are the bits of the number**, in whatever order they
stand. -/
theorem popcount_sum {ks : List Nat} (h : ks.Nodup) :
    popcount (ks.map fun k => 2 ^ k).sum = ks.length := by
  have hperm : List.Perm (ks.mergeSort (· ≤ ·)) ks := List.mergeSort_perm ks _
  have hsorted : (ks.mergeSort (· ≤ ·)).SortedLT := by
    refine List.sortedLT_iff_pairwise.mpr ?_
    have hle := List.pairwise_mergeSort' (r := (· ≤ ·)) ks
    exact hle.imp₂ (fun _ _ hle hne => Nat.lt_of_le_of_ne hle hne) (hperm.nodup_iff.mpr h)
  rw [← (hperm.map fun k => 2 ^ k).sum_eq, popcount, Nat.bitIndices_sum_map_two_pow hsorted,
    hperm.length_eq]

theorem popcount_two_mul (n : Nat) : popcount (2 * n) = popcount n := by
  rw [popcount, Nat.bitIndices_two_mul, List.length_map]
  rfl

/-! ## Trees -/

/-- A subtree of which something else is kept. -/
def Subtree.map {α β : Type} (f : α → β) (t : Subtree α) : Subtree β :=
  ⟨f t.root, t.height⟩

namespace Forest

variable {α β : Type}

/-! ## Rows and their places -/

/-- `P k i t` speaks of a tree `t` over the `i`-th run of `2 ^ k` leaves. -/
abbrev Placement (α : Type) := Nat → Nat → α → Prop

/-- Joining two neighbours gives a tree at the place of both. -/
def Joins (join : α → α → α) (P : Placement α) : Prop :=
  ∀ ⦃k i : Nat⦄ ⦃l r : α⦄, P k (2 * i) l → P k (2 * i + 1) r → P (k + 1) i (join l r)

/-- The trees of a row, newest first, cover the leaves below `n`: the newest one ends there and
stands behind an even number of runs of its own length. -/
inductive Stands (P : Placement α) : Nat → List (Subtree α) → Prop
  | nil : Stands P 0 []
  | cons {n k i : Nat} {t : α} {ts : List (Subtree α)} (hn : n = (2 * i + 1) * 2 ^ k)
      (ht : P k (2 * i) t) (hts : Stands P (2 * i * 2 ^ k) ts) : Stands P n (⟨t, k + 1⟩ :: ts)

/-- Trees that follow each other from leaf `n` to leaf `m`. -/
inductive Laid (P : Placement α) : Nat → List (Subtree α) → Nat → Prop
  | nil {n : Nat} : Laid P n [] n
  | cons {n m k i : Nat} {t : α} {ts : List (Subtree α)} (hn : n = i * 2 ^ k) (ht : P k i t)
      (hts : Laid P ((i + 1) * 2 ^ k) ts m) : Laid P n (⟨t, k + 1⟩ :: ts) m

theorem Laid.append {P : Placement α} {n m l : Nat} {xs ys : List (Subtree α)}
    (hx : Laid P n xs m) (hy : Laid P m ys l) : Laid P n (xs ++ ys) l := by
  induction hx with
  | nil => exact hy
  | cons hn ht _ ih => exact .cons hn ht (ih hy)

/-! ## Arithmetic of places -/

/-- A place that lies at a coarser boundary has an even number. -/
theorem even_of_mul_two_pow_eq {i k a j : Nat} (h : i * 2 ^ k = (2 * a + 1) * 2 ^ j)
    (hkj : k < j) : ∃ b, i = 2 * b := by
  obtain ⟨e, rfl⟩ := Nat.exists_eq_add_of_lt hkj
  refine ⟨(2 * a + 1) * 2 ^ e, Nat.eq_of_mul_eq_mul_right (Nat.two_pow_pos k) ?_⟩
  rw [h]
  ring

/-- An odd place is no boundary of anything coarser. -/
theorem le_of_mul_two_pow_eq {i k a j : Nat} (h : i * 2 ^ k = (2 * a + 1) * 2 ^ j) : k ≤ j := by
  by_contra hjk
  obtain ⟨e, rfl⟩ := Nat.exists_eq_add_of_lt (Nat.lt_of_not_le hjk)
  have hodd : 2 * (i * 2 ^ e) = 2 * a + 1 := by
    refine Nat.eq_of_mul_eq_mul_right (Nat.two_pow_pos j) ?_
    rw [← h]
    ring
  omega

/-- A power of two is one run, and no other odd number of runs. -/
theorem eq_of_two_pow_eq {k a j : Nat} (h : 2 ^ k = (2 * a + 1) * 2 ^ j) : k = j ∧ a = 0 := by
  have hkj : k ≤ j := le_of_mul_two_pow_eq (i := 1) (by rw [Nat.one_mul, h])
  obtain rfl | hlt := Nat.eq_or_lt_of_le hkj
  · have : 2 * a + 1 = 1 := by
      refine Nat.eq_of_mul_eq_mul_right (Nat.two_pow_pos k) ?_
      rw [Nat.one_mul, ← h]
    omega
  · obtain ⟨b, hb⟩ := even_of_mul_two_pow_eq (i := 1) (by rw [Nat.one_mul, h]) hlt
    omega

/-! ## Pushing -/

variable {join : α → α → α} {P : Placement α}

/-- **A tree that starts where a row ends is pushed**, and the row then covers its leaves. -/
theorem Stands.push (hj : Joins join P) {n : Nat} {ts : List (Subtree α)} (h : Stands P n ts) :
    ∀ {k i : Nat} {t : α}, n = i * 2 ^ k → P k i t →
      ∃ ts', pushTrees join ⟨t, k + 1⟩ ts = .ok ts' ∧ Stands P ((i + 1) * 2 ^ k) ts' := by
  induction h with
  | nil =>
    intro k i t hn ht
    have hi : i = 0 := by
      rcases Nat.mul_eq_zero.mp hn.symm with hi | hk
      · exact hi
      · exact absurd hk (Nat.two_pow_pos k).ne'
    subst hi
    exact ⟨[⟨t, k + 1⟩], rfl, .cons (i := 0) rfl ht (by simpa using Stands.nil)⟩
  | @cons m j a u ts hm hu hts ih =>
    intro k i t hn ht
    have hplace : i * 2 ^ k = (2 * a + 1) * 2 ^ j := by rw [← hn, hm]
    have hkj := le_of_mul_two_pow_eq hplace
    rw [pushTrees]
    dsimp only
    rw [if_neg (by omega)]
    obtain rfl | hlt := Nat.eq_or_lt_of_le hkj
    · -- Equal heights: the newest tree is the left half, and the join is pushed in its place.
      have hi : i = 2 * a + 1 := Nat.eq_of_mul_eq_mul_right (Nat.two_pow_pos k) hplace
      subst hi
      rw [if_neg (by omega)]
      obtain ⟨ts', hpush, hts'⟩ := ih (k := k + 1) (i := a) (by ring) (hj hu ht)
      refine ⟨ts', hpush, ?_⟩
      have hend : (2 * a + 1 + 1) * 2 ^ k = (a + 1) * 2 ^ (k + 1) := by ring
      rw [hend]
      exact hts'
    · obtain ⟨b, rfl⟩ := even_of_mul_two_pow_eq hplace hlt
      rw [if_pos (by omega)]
      refine ⟨_, rfl, .cons rfl ht ?_⟩
      rw [hplace]
      exact .cons rfl hu hts

theorem Stands.pushAll (hj : Joins join P) {n m : Nat} {ts : List (Subtree α)}
    (h : Laid P n ts m) :
    ∀ {f : Forest α}, Stands P n f.trees →
      ∃ f' : Forest α, f.pushAll join ts = .ok f' ∧ Stands P m f'.trees := by
  induction h with
  | nil => exact fun hf => ⟨_, rfl, hf⟩
  | cons hn ht _ ih =>
    intro f hf
    obtain ⟨trees, hpush, htrees⟩ := hf.push hj hn ht
    obtain ⟨f', hall, hf'⟩ := ih (f := ⟨trees⟩) htrees
    refine ⟨f', ?_, hf'⟩
    rw [Forest.pushAll, List.foldlM_cons, Forest.push, hpush]
    exact hall

/-- A row over `2 ^ k` leaves is a single tree. -/
theorem Stands.eq_singleton {k : Nat} {ts : List (Subtree α)} (h : Stands P (2 ^ k) ts) :
    ∃ t, ts = [⟨t, k + 1⟩] ∧ P k 0 t := by
  generalize hn : 2 ^ k = n at h
  cases h with
  | nil => exact absurd hn (Nat.two_pow_pos k).ne'
  | @cons _ j a t ts hm ht hts =>
    obtain ⟨rfl, rfl⟩ := eq_of_two_pow_eq (hn.trans hm)
    generalize hz : 2 * 0 * 2 ^ k = z at hts
    cases hts with
    | nil => exact ⟨t, rfl, ht⟩
    | @cons _ j' a' _ _ hm' _ _ =>
      have hpos : 0 < (2 * a' + 1) * 2 ^ j' := Nat.mul_pos (by omega) (Nat.two_pow_pos j')
      omega

/-- The root over trees that are pushed one after the other. -/
def joined (join : α → α → α) (ts : List (Subtree α)) : Except MerkleError α :=
  empty.pushAll join ts >>= root join

/-- **Trees that cover `2 ^ k` leaves are joined to one tree over all of them.** -/
theorem joined_of_laid (hj : Joins join P) {k : Nat} {ts : List (Subtree α)}
    (h : Laid P 0 ts (2 ^ k)) : ∃ t, joined join ts = .ok t ∧ P k 0 t := by
  obtain ⟨f, hall, hf⟩ := Stands.pushAll hj h (f := empty) .nil
  obtain ⟨t, hts, ht⟩ := hf.eq_singleton
  refine ⟨t, ?_, ht⟩
  rw [joined, hall]
  show f.root join = .ok t
  rw [root, hts]
  rfl

/-! ## The same pushes on two kinds of trees -/

/-- A row of which something else is kept. -/
def map (f : α → β) (r : Forest α) : Forest β :=
  ⟨r.trees.map (Subtree.map f)⟩

section Map

variable {join' : β → β → β} {f : α → β} (hf : ∀ a b, f (join a b) = join' (f a) (f b))
include hf

theorem pushTrees_map (t : Subtree α) (ts : List (Subtree α)) :
    pushTrees join' (t.map f) (ts.map (Subtree.map f))
      = (pushTrees join t ts).map (List.map (Subtree.map f)) := by
  induction ts generalizing t with
  | nil => rfl
  | cons top rest ih =>
    rw [List.map_cons, pushTrees, pushTrees]
    show (if t.height > top.height then _ else if t.height < top.height then _ else _) = _
    by_cases hgt : t.height > top.height
    · rw [if_pos hgt, if_pos hgt]
      rfl
    · rw [if_neg hgt, if_neg hgt]
      by_cases hlt : t.height < top.height
      · rw [if_pos hlt, if_pos hlt]
        rfl
      · rw [if_neg hlt, if_neg hlt, ← ih ⟨join top.root t.root, t.height + 1⟩]
        simp only [Subtree.map, hf]

theorem push_map (t : Subtree α) (r : Forest α) :
    (r.map f).push join' (t.map f) = (r.push join t).map (map f) := by
  rw [push, push, map, pushTrees_map hf]
  cases pushTrees join t r.trees <;> rfl

theorem pushAll_map (ts : List (Subtree α)) (r : Forest α) :
    (r.map f).pushAll join' (ts.map (Subtree.map f)) = (r.pushAll join ts).map (map f) := by
  induction ts generalizing r with
  | nil => rfl
  | cons t ts ih =>
    simp only [pushAll, List.map_cons, List.foldlM_cons]
    rw [push_map hf]
    cases r.push join t with
    | error e => rfl
    | ok r' => exact ih r'

theorem root_map (r : Forest α) : (r.map f).root join' = (r.root join).map f := by
  obtain ⟨trees⟩ := r
  cases trees with
  | nil => rfl
  | cons newest older =>
    show Except.ok _ = Except.ok _
    rw [List.foldl_map]
    exact congrArg Except.ok (List.foldl_hom f fun acc t => (hf t.root acc).symm)

/-- **The same pushes on two kinds of trees give the same tree.** -/
theorem joined_map (ts : List (Subtree α)) :
    joined join' (ts.map (Subtree.map f)) = (joined join ts).map f := by
  rw [joined, joined]
  have hall := pushAll_map hf ts empty
  rw [show (empty : Forest α).map f = empty from rfl] at hall
  rw [hall]
  cases empty.pushAll join ts with
  | error e => rfl
  | ok r => exact root_map hf r

end Map

/-! ## What a joined tree is made of -/

section Parts

variable {γ : Type} {f : α → List γ} (hf : ∀ a b, f (join a b) = f a ++ f b)
include hf

theorem pushTrees_parts {t : Subtree α} {ts ts' : List (Subtree α)}
    (h : pushTrees join t ts = .ok ts') :
    (ts'.reverse.flatMap fun s => f s.root)
      = (ts.reverse.flatMap fun s => f s.root) ++ f t.root := by
  induction ts generalizing t with
  | nil =>
    cases h
    simp
  | cons top rest ih =>
    rw [pushTrees] at h
    split at h
    · cases h
    · split at h
      · cases h
        simp
      · rw [ih h, hf]
        simp

theorem pushAll_parts {ts : List (Subtree α)} {r r' : Forest α} (h : r.pushAll join ts = .ok r') :
    (r'.trees.reverse.flatMap fun s => f s.root)
      = (r.trees.reverse.flatMap fun s => f s.root) ++ ts.flatMap fun s => f s.root := by
  induction ts generalizing r with
  | nil =>
    cases h
    simp
  | cons t ts ih =>
    rw [pushAll, List.foldlM_cons, push] at h
    cases hp : pushTrees join t r.trees with
    | error e =>
      rw [hp] at h
      cases h
    | ok trees =>
      rw [hp] at h
      rw [ih h, pushTrees_parts hf hp, List.flatMap_cons, List.append_assoc]

theorem root_parts {r : Forest α} {t : α} (h : r.root join = .ok t) :
    f t = r.trees.reverse.flatMap fun s => f s.root := by
  obtain ⟨trees⟩ := r
  cases trees with
  | nil => cases h
  | cons newest older =>
    cases h
    simp only [List.reverse_cons, List.flatMap_append, List.flatMap_singleton]
    generalize newest.root = acc
    induction older generalizing acc with
    | nil => rfl
    | cons t ts ih =>
      rw [List.foldl_cons, ih, hf]
      simp

/-- **A joined tree holds what its trees hold**, in their order. -/
theorem joined_parts {ts : List (Subtree α)} {t : α} (h : joined join ts = .ok t) :
    f t = ts.flatMap fun s => f s.root := by
  rw [joined] at h
  cases hall : empty.pushAll join ts with
  | error e =>
    rw [hall] at h
    cases h
  | ok r =>
    rw [hall] at h
    rw [root_parts hf h, pushAll_parts hf hall]
    rfl

end Parts

end Forest

end Trustless
