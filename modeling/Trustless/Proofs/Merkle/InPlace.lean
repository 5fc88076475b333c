import Mathlib.Tactic.Ring
import Trustless.Merkle.InPlace
import Trustless.Proofs.Merkle.Forest

/-!
# A forest is a binary counter

The trees of a forest fall in height from the oldest to the newest, whatever was pushed and whatever
was refused. A tree that is not taller than the newest one is therefore not taller than any, nor is
what it is joined to: only the first look at the row can refuse it, and nothing is off the row yet.
With a weight of `2 ^ h` for a tree of height `h`, joining changes no weight, so that the heights are
the bits of the number that was counted up.

Heights are natural numbers here, so that a statement about all of them covers those of any width.

* `Ordered`, `weight`: the order of a row, and what it counts.
* `pushTreesInPlace_of_low`, `pushTreesInPlace_of_tall`: what one push does to an ordered row.
* `Piece.Refused`: why a piece is refused.
* `run_spec`: what any sequence of pushes keeps; `run_leaves`: leaves on their own are never refused.
* `Hasher.run_outcome`: all of it at once.
-/

namespace Trustless

namespace Forest

variable {α : Type} {join : α → α → α} {t top : Subtree α} {ts rest : List (Subtree α)}

/-! ## Order and weight -/

/-- The trees of a row, newest first, grow strictly taller towards the oldest. -/
def Ordered (ts : List (Subtree α)) : Prop :=
  ts.Pairwise fun s t => s.height < t.height

/-- What a row counts. -/
def weight (ts : List (Subtree α)) : Nat :=
  (ts.map fun t => 2 ^ t.height).sum

theorem weight_cons (t : Subtree α) (ts : List (Subtree α)) :
    weight (t :: ts) = 2 ^ t.height + weight ts := rfl

/-- Only the empty row counts nothing. -/
theorem weight_eq_zero_iff : weight ts = 0 ↔ ts = [] := by
  cases ts with
  | nil => exact ⟨fun _ => rfl, fun _ => rfl⟩
  | cons t ts =>
    have hpos := Nat.two_pow_pos t.height
    rw [weight_cons]
    exact ⟨fun h => by omega, nofun⟩

/-- The trees of a row are the bits of what it counts. -/
theorem length_of_ordered (h : Ordered ts) : ts.length = popcount (weight ts) := by
  have hnodup : (ts.map Subtree.height).Nodup := List.pairwise_map.mpr (h.imp Nat.ne_of_lt)
  have hcount := popcount_sum hnodup
  rw [List.map_map, List.length_map] at hcount
  exact hcount.symm

/-! ## One push -/

/-- A push in place comes to what a push comes to. -/
theorem pushTrees_eq (join : α → α → α) (t : Subtree α) (ts : List (Subtree α)) :
    pushTrees join t ts
      = (pushTreesInPlace join t ts).1.map fun _ => (pushTreesInPlace join t ts).2 := by
  induction ts generalizing t with
  | nil => rfl
  | cons top rest ih =>
    rw [pushTrees, pushTreesInPlace]
    split
    · rfl
    · split
      · rfl
      · exact ih _

/-- A tree that is taller than the newest one is refused, and the row stays as it is. -/
theorem pushTreesInPlace_of_tall (h : top.height < t.height) :
    pushTreesInPlace join t (top :: rest)
      = (.error (.subtreeTooTall t.height top.height), top :: rest) := by
  rw [pushTreesInPlace, if_pos h]

/-- **A tree that is not taller than any other is accepted**, however many joins it takes. -/
theorem pushTreesInPlace_of_low (join : α → α → α) (hts : Ordered ts)
    (hlow : ∀ s ∈ ts, t.height ≤ s.height) :
    ∃ ts', pushTreesInPlace join t ts = (.ok (), ts') ∧ Ordered ts' ∧
      (∀ s ∈ ts', t.height ≤ s.height) ∧ weight ts' = weight ts + 2 ^ t.height := by
  induction ts generalizing t with
  | nil =>
    exact ⟨[t], rfl, List.pairwise_singleton _ _, List.forall_mem_singleton.mpr le_rfl,
      Nat.add_comm _ _⟩
  | cons top rest ih =>
    have hle := hlow top List.mem_cons_self
    obtain ⟨htop, hrest⟩ := List.pairwise_cons.mp hts
    rw [pushTreesInPlace, if_neg (Nat.not_lt_of_le hle)]
    rcases hle.lt_or_eq with hlt | heq
    · rw [if_pos hlt]
      refine ⟨t :: top :: rest, rfl, List.pairwise_cons.mpr ⟨?_, hts⟩,
        List.forall_mem_cons.mpr ⟨le_rfl, hlow⟩, Nat.add_comm _ _⟩
      exact List.forall_mem_cons.mpr ⟨hlt, fun s hs => hlt.trans (htop s hs)⟩
    · -- The joined tree is one higher, and everything further back is higher than the newest.
      rw [if_neg (Nat.not_lt_of_le heq.ge)]
      obtain ⟨ts', hpush, hts', hlow', hweight⟩ :=
        ih (t := ⟨join top.root t.root, t.height + 1⟩) hrest fun s hs => heq ▸ htop s hs
      refine ⟨ts', hpush, hts', fun s hs => Nat.le_of_succ_le (hlow' s hs), ?_⟩
      rw [hweight, weight_cons, ← heq]
      ring

/-- A tree is not taller than any tree of an ordered row, unless it is taller than the newest. -/
theorem le_of_ordered (h : Ordered (top :: rest)) (hle : t.height ≤ top.height) :
    ∀ s ∈ top :: rest, t.height ≤ s.height :=
  List.forall_mem_cons.mpr
    ⟨hle, fun s hs => hle.trans ((List.pairwise_cons.mp h).1 s hs).le⟩

end Forest

open Forest

/-! ## Pieces -/

namespace Piece

/-- A leaf has 64 bytes. -/
def IsWhole : Piece → Prop
  | leaf b => b.size = Sector.leafSize
  | subtree .. => True

/-- What a piece counts. -/
def weight (p : Piece) : Nat :=
  2 ^ p.height

/-- Why a piece is refused: a leaf for its length, and any other piece for being taller than the
newest tree. -/
inductive Refused (f : Forest Digest) : Piece → MerkleError → Prop
  | leafSize {b : ByteArray} (h : b.size ≠ Sector.leafSize) :
      Refused f (.leaf b) (.leafSize b.size)
  | tooTall {p : Piece} {top : Subtree Digest} {rest : List (Subtree Digest)} (hp : p.IsWhole)
      (hf : f.trees = top :: rest) (h : top.height < p.height) :
      Refused f p (.subtreeTooTall p.height top.height)

/-- There is one reason for a refusal. -/
theorem Refused.unique {f : Forest Digest} {p : Piece} {e e' : MerkleError} (h : p.Refused f e)
    (h' : p.Refused f e') : e = e' := by
  cases h with
  | leafSize hsize =>
    cases h' with
    | leafSize => rfl
    | tooTall hp => exact absurd hp hsize
  | tooTall hp hf =>
    cases h' with
    | leafSize hsize => exact absurd hp hsize
    | tooTall _ hf' =>
      obtain ⟨rfl, rfl⟩ := List.cons.inj (hf.symm.trans hf')
      rfl

end Piece

namespace Hasher

variable {H : Hasher} {f : Forest Digest} {p : Piece} {ps : List Piece}

/-- The tree that a piece is. -/
def treeOf (H : Hasher) : Piece → Subtree Digest
  | .leaf b => ⟨H.leaf b, 1⟩
  | .subtree root height => ⟨root, height⟩

theorem height_treeOf (H : Hasher) (p : Piece) : (H.treeOf p).height = p.height := by
  cases p <;> rfl

theorem pushInPlace_of_isWhole (hp : p.IsWhole) :
    H.pushInPlace f p = f.pushInPlace H.node (H.treeOf p) := by
  cases p with
  | leaf b => exact if_pos hp
  | subtree root height => rfl

theorem pushInPlace_of_not_isWhole (hp : ¬ p.IsWhole) :
    ∃ b, p = .leaf b ∧ b.size ≠ Sector.leafSize ∧
      H.pushInPlace f p = (.error (.leafSize b.size), f) := by
  cases p with
  | leaf b => exact ⟨b, rfl, hp, if_neg hp⟩
  | subtree root height => exact absurd trivial hp

/-- A push in place comes to what a push comes to. -/
theorem push_eq (H : Hasher) (f : Forest Digest) (p : Piece) :
    H.push f p = (H.pushInPlace f p).1.map fun _ => (H.pushInPlace f p).2 := by
  have hforest : ∀ t : Subtree Digest,
      f.push H.node t = (f.pushInPlace H.node t).1.map fun _ => (f.pushInPlace H.node t).2 := by
    intro t
    rw [Forest.push, pushTrees_eq, Forest.pushInPlace]
    cases (pushTreesInPlace H.node t f.trees).1 <;> rfl
  cases p with
  | leaf b =>
    rw [push, pushLeaf, pushInPlace]
    split
    · exact hforest _
    · rfl
  | subtree root height => exact hforest _

/-- **What one push does to an ordered forest**: it leaves the forest as it is and tells why, or it
counts the piece. -/
theorem pushInPlace_cases (H : Hasher) (hf : Ordered f.trees) (p : Piece) :
    (∃ e, p.Refused f e ∧ H.pushInPlace f p = (.error e, f)) ∨
      (∀ e, ¬ p.Refused f e) ∧ ∃ f', H.pushInPlace f p = (.ok (), f') ∧ Ordered f'.trees ∧
        (∀ s ∈ f'.trees, p.height ≤ s.height) ∧
        weight f'.trees = weight f.trees + p.weight := by
  by_cases hp : p.IsWhole
  · rw [pushInPlace_of_isWhole hp, Forest.pushInPlace, Piece.weight, ← H.height_treeOf p]
    -- Whether the piece is accepted is decided by the newest tree.
    by_cases hlow : ∀ s ∈ f.trees, (H.treeOf p).height ≤ s.height
    · refine .inr ⟨fun e he => ?_, ?_⟩
      · cases he with
        | leafSize h => exact h hp
        | tooTall _ htrees htall =>
          rw [htrees, H.height_treeOf] at hlow
          exact absurd htall (Nat.not_lt_of_le (hlow _ List.mem_cons_self))
      · obtain ⟨trees, hpush, hspec⟩ := pushTreesInPlace_of_low H.node hf hlow
        exact ⟨⟨trees⟩, by rw [hpush], hspec⟩
    · obtain ⟨trees⟩ := f
      cases trees with
      | nil => exact absurd (fun s hs => nomatch hs) hlow
      | cons top rest =>
        have htall : top.height < (H.treeOf p).height :=
          Nat.lt_of_not_le fun hle => hlow (le_of_ordered hf hle)
        refine .inl ⟨_, .tooTall hp rfl (H.height_treeOf p ▸ htall), ?_⟩
        rw [pushTreesInPlace_of_tall htall, H.height_treeOf]
  · obtain ⟨b, rfl, hsize, hpush⟩ := pushInPlace_of_not_isWhole (H := H) (f := f) hp
    exact .inl ⟨_, .leafSize hsize, hpush⟩

/-! ## Sequences of pushes -/

/-- **A row stays ordered and counts what was accepted**, whatever is pushed. -/
theorem run_spec (H : Hasher) (hf : Ordered f.trees) (ps : List Piece) :
    Ordered (H.run f ps).1.trees ∧
      weight (H.run f ps).1.trees
        = weight f.trees + ((H.run f ps).2.map Piece.weight).sum := by
  induction ps generalizing f with
  | nil => exact ⟨hf, rfl⟩
  | cons p ps ih =>
    rw [run]
    rcases H.pushInPlace_cases hf p with ⟨e, -, hpush⟩ | ⟨-, f', hpush, hf', -, hweight⟩
    · rw [hpush]
      exact ih hf
    · obtain ⟨horder, hsum⟩ := ih hf'
      rw [hpush]
      refine ⟨horder, ?_⟩
      show weight (H.run f' ps).1.trees = weight f.trees
        + (p.weight + ((H.run f' ps).2.map Piece.weight).sum)
      rw [hsum, hweight, Nat.add_assoc]

/-- Leaves are never too tall for what leaves have built. -/
theorem run_leaves (H : Hasher) (hf : Ordered f.trees) (hlow : ∀ s ∈ f.trees, 1 ≤ s.height)
    (hps : ∀ p ∈ ps, p.IsWhole ∧ p.height = 1) : (H.run f ps).2 = ps := by
  induction ps generalizing f with
  | nil => rfl
  | cons p ps ih =>
    obtain ⟨hp, hheight⟩ := hps p List.mem_cons_self
    rw [run]
    rcases H.pushInPlace_cases hf p with ⟨e, hrefused, -⟩ | ⟨-, f', hpush, hf', hlow', -⟩
    · cases hrefused with
      | leafSize h => exact absurd hp h
      | @tooTall _ top rest _ htrees htall =>
        have htop := hlow top (by rw [htrees]; exact List.mem_cons_self)
        omega
    · rw [hpush]
      exact congrArg (p :: ·) (ih hf' (hheight ▸ hlow') fun q hq => hps q (List.mem_cons_of_mem p hq))

/-- What holds of the forest that a sequence of pushes leaves, and of the next push. -/
structure RunOutcome (H : Hasher) (ps : List Piece) : Prop where
  /-- Heights fall from the oldest tree to the newest. -/
  ordered : Ordered (H.run .empty ps).1.trees
  /-- Joining changes nothing in what is counted. -/
  counts : ((H.run .empty ps).1.trees.map fun t => 2 ^ t.height).sum
    = ((H.run .empty ps).2.map fun p => 2 ^ p.height).sum
  /-- Leaves alone are all accepted. -/
  leaves : (∀ p ∈ ps, p.IsWhole ∧ p.height = 1) → (H.run .empty ps).2 = ps
  /-- After leaves alone, there is a tree for every bit of their number. -/
  bits : (∀ p ∈ (H.run .empty ps).2, p.height = 1) →
    (H.run .empty ps).1.size = popcount (H.run .empty ps).2.length
  /-- A push is refused for what it is and for the newest tree before it, and for nothing else. -/
  refused : ∀ p e, (H.pushInPlace (H.run .empty ps).1 p).1 = .error e
    ↔ p.Refused (H.run .empty ps).1 e
  /-- A push that is refused changes nothing. -/
  atomic : ∀ p e, (H.pushInPlace (H.run .empty ps).1 p).1 = .error e →
    (H.pushInPlace (H.run .empty ps).1 p).2 = (H.run .empty ps).1
  /-- A push that answers with a new forest comes to the same. -/
  pushes : ∀ p, H.push (H.run .empty ps).1 p
    = (H.pushInPlace (H.run .empty ps).1 p).1.map fun _ => (H.pushInPlace (H.run .empty ps).1 p).2
  /-- There is no root as long as nothing was accepted. -/
  root : ∀ e, (H.run .empty ps).1.root H.node = .error e
    ↔ (H.run .empty ps).2 = [] ∧ e = .emptyStack

/-- Nothing is counted exactly if nothing was accepted. -/
theorem sum_weight_eq_zero_iff : (ps.map Piece.weight).sum = 0 ↔ ps = [] := by
  cases ps with
  | nil => exact ⟨fun _ => rfl, fun _ => rfl⟩
  | cons p ps =>
    have hpos : 0 < p.weight := Nat.two_pow_pos _
    rw [List.map_cons, List.sum_cons]
    exact ⟨fun h => by omega, nofun⟩

theorem root_eq_error_iff {e : MerkleError} :
    f.root H.node = .error e ↔ f.trees = [] ∧ e = .emptyStack := by
  obtain ⟨trees⟩ := f
  cases trees with
  | nil => exact ⟨fun h => ⟨rfl, (Except.error.inj h).symm⟩, fun h => congrArg _ h.2.symm⟩
  | cons newest older => exact ⟨nofun, nofun⟩

/-- **A forest counts, and refuses without a trace.** Whatever is pushed in place, starting from no
trees, and however much of it is refused: heights fall from the oldest tree to the newest, and the
powers of two at the heights of the trees and at those of the accepted pieces have one sum, so that
after leaves alone there is a tree for every bit of their number. The next push is refused exactly
if it is a leaf of another length or taller than the newest tree, it then changes nothing, and there
is no root exactly as long as nothing was accepted. -/
theorem run_outcome (H : Hasher) (ps : List Piece) : RunOutcome H ps := by
  have hempty : Ordered (Forest.empty : Forest Digest).trees := List.Pairwise.nil
  obtain ⟨hordered, hweight⟩ := H.run_spec hempty ps
  have hcounts : weight (H.run .empty ps).1.trees
      = ((H.run .empty ps).2.map Piece.weight).sum := hweight.trans (Nat.zero_add _)
  refine ⟨hordered, hcounts, H.run_leaves hempty nofun, fun hleaves => ?_, fun p e => ?_,
    fun p e he => ?_, H.push_eq _, fun e => ?_⟩
  · have htwice : ((H.run .empty ps).2.map Piece.weight).sum = 2 * (H.run .empty ps).2.length := by
      rw [List.map_congr_left (g := fun _ => 2) fun p hp => by rw [Piece.weight, hleaves p hp]; rfl,
        List.map_const', List.sum_replicate_nat, Nat.mul_comm]
    rw [← popcount_two_mul, ← htwice, ← hcounts]
    exact length_of_ordered hordered
  · rcases H.pushInPlace_cases hordered p with ⟨e', hrefused, hpush⟩ | ⟨haccepted, f', hpush, -⟩
    · rw [hpush]
      constructor
      · rintro ⟨⟩
        exact hrefused
      · intro he
        exact congrArg Except.error (hrefused.unique he)
    · rw [hpush]
      exact ⟨nofun, fun he => absurd he (haccepted e)⟩
  · rcases H.pushInPlace_cases hordered p with ⟨_, -, hpush⟩ | ⟨-, f', hpush, -⟩
    · rw [hpush]
    · rw [hpush] at he
      cases he
  · rw [root_eq_error_iff, ← weight_eq_zero_iff, hcounts, sum_weight_eq_zero_iff]

end Hasher

end Trustless
