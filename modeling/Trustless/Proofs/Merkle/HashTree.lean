import Trustless.Proofs.Bytes
import Trustless.Proofs.Merkle.Forest
import Trustless.Proofs.Merkle.Tiling

/-!
# What a Merkle root commits to

A root is the value of a hash tree: leaves and nodes that were hashed, and roots that were given.
The forest does not look into its trees, so that it builds the hash tree by the very pushes that
compute the root, and everything that was hashed on the way can be read off it.

* `HashTree.inputs`: what is hashed; `Hasher.Collides` asks for two different ones with one hash.
* `Covers`: a tree at its place, with given leaves of data and given roots only beside them.
* `Covers.binding`: two trees at one place with one root have the same leaves, or their inputs
  collide.
* `HashTree.eq_of_shape`: two trees of one shape with one root are equal, or their inputs collide.
* `merkleRoot_eq`: the root of data is that of its hash tree.
-/

namespace Trustless

namespace Hasher

/-- Two computations hashed two different inputs to the same value. -/
def Collides (H : Hasher) (xs ys : List ByteArray) : Prop :=
  ∃ x ∈ xs, ∃ y ∈ ys, x ≠ y ∧ H.hash x = H.hash y

theorem Collides.mono {H : Hasher} {xs xs' ys ys' : List ByteArray} (h : H.Collides xs ys)
    (hx : xs ⊆ xs') (hy : ys ⊆ ys') : H.Collides xs' ys' := by
  obtain ⟨x, hxm, y, hym, hne, heq⟩ := h
  exact ⟨x, hx hxm, y, hy hym, hne, heq⟩

theorem leafInput_inj {a b : ByteArray} (h : leafInput a = leafInput b) : a = b :=
  (ByteArray.append_right_inj _).mp h

theorem nodeInput_inj {l r l' r' : Digest} (h : nodeInput l r = nodeInput l' r') :
    l = l' ∧ r = r' := by
  rw [nodeInput, nodeInput, ByteArray.append_assoc, ByteArray.append_assoc,
    ByteArray.append_right_inj,
    ByteArray.append_eq_append_iff_of_size_eq_left (by rw [l.size_eq, l'.size_eq])] at h
  exact ⟨ByteVector.ext h.1, ByteVector.ext h.2⟩

end Hasher

/-- How a root comes about: roots that are given, leaves and nodes that are hashed. -/
inductive HashTree
  | given (root : Digest)
  | leaf (bytes : ByteArray)
  | node (left right : HashTree)

namespace HashTree

/-- The root of a hash tree. -/
def root (H : Hasher) : HashTree → Digest
  | given r => r
  | leaf b => H.leaf b
  | node l r => H.node (l.root H) (r.root H)

/-- What is hashed to get the root. -/
def inputs (H : Hasher) : HashTree → List ByteArray
  | given _ => []
  | leaf b => [Hasher.leafInput b]
  | node l r => Hasher.nodeInput (l.root H) (r.root H) :: (l.inputs H ++ r.inputs H)

/-- The tree without what is kept of its leaves and given roots. -/
def shape : HashTree → HashTree
  | given _ => given default
  | leaf _ => leaf .empty
  | node l r => node l.shape r.shape

/-- The given roots, from left to right. -/
def givens : HashTree → List Digest
  | given r => [r]
  | leaf _ => []
  | node l r => l.givens ++ r.givens

/-- The leaves that are hashed, from left to right. -/
def leaves : HashTree → List ByteArray
  | given _ => []
  | leaf b => [b]
  | node l r => l.leaves ++ r.leaves

variable {H : Hasher}

/-- Everything that is hashed is the input of a leaf or of a node. -/
theorem mem_inputs {t : HashTree} {x : ByteArray} (h : x ∈ t.inputs H) :
    (∃ b ∈ t.leaves, x = Hasher.leafInput b) ∨ ∃ l r, x = Hasher.nodeInput l r := by
  induction t with
  | given r => exact absurd h List.not_mem_nil
  | leaf b => exact .inl ⟨b, List.mem_singleton_self b, List.mem_singleton.mp h⟩
  | node l r ihl ihr =>
    rcases List.mem_cons.mp h with rfl | h
    · exact .inr ⟨_, _, rfl⟩
    · rcases List.mem_append.mp h with h | h
      · exact (ihl h).imp_left fun ⟨b, hb, hx⟩ => ⟨b, List.mem_append_left _ hb, hx⟩
      · exact (ihr h).imp_left fun ⟨b, hb, hx⟩ => ⟨b, List.mem_append_right _ hb, hx⟩

/-- Only the hashes of the inputs count. -/
theorem root_congr {H' : Hasher} {t : HashTree} (h : ∀ x ∈ t.inputs H, H.hash x = H'.hash x) :
    t.root H = t.root H' := by
  induction t with
  | given r => rfl
  | leaf b => exact h _ List.mem_cons_self
  | node l r ihl ihr =>
    have hl := ihl fun x hx => h x (List.mem_cons_of_mem _ (List.mem_append_left _ hx))
    have hr := ihr fun x hx => h x (List.mem_cons_of_mem _ (List.mem_append_right _ hx))
    rw [root, root, ← hl, ← hr]
    exact h _ List.mem_cons_self

/-! ## Two trees with one root -/

theorem leaf_binding {a b : ByteArray} (h : (leaf a).root H = (leaf b).root H) :
    a = b ∨ H.Collides ((leaf a).inputs H) ((leaf b).inputs H) := by
  by_cases hab : Hasher.leafInput a = Hasher.leafInput b
  · exact .inl (Hasher.leafInput_inj hab)
  · exact .inr ⟨_, List.mem_cons_self, _, List.mem_cons_self, hab, h⟩

theorem node_binding {l r l' r' : HashTree} (h : (node l r).root H = (node l' r').root H) :
    (l.root H = l'.root H ∧ r.root H = r'.root H) ∨
      H.Collides ((node l r).inputs H) ((node l' r').inputs H) := by
  by_cases hin : Hasher.nodeInput (l.root H) (r.root H) = Hasher.nodeInput (l'.root H) (r'.root H)
  · exact .inl (Hasher.nodeInput_inj hin)
  · exact .inr ⟨_, List.mem_cons_self, _, List.mem_cons_self, hin, h⟩

theorem Collides.left {l r l' r' : HashTree} (h : H.Collides (l.inputs H) (l'.inputs H)) :
    H.Collides ((node l r).inputs H) ((node l' r').inputs H) :=
  h.mono (fun _ hx => List.mem_cons_of_mem _ (List.mem_append_left _ hx))
    (fun _ hx => List.mem_cons_of_mem _ (List.mem_append_left _ hx))

theorem Collides.right {l r l' r' : HashTree} (h : H.Collides (r.inputs H) (r'.inputs H)) :
    H.Collides ((node l r).inputs H) ((node l' r').inputs H) :=
  h.mono (fun _ hx => List.mem_cons_of_mem _ (List.mem_append_right _ hx))
    (fun _ hx => List.mem_cons_of_mem _ (List.mem_append_right _ hx))

/-- **Two trees of one shape with one root are equal**, or their inputs collide. -/
theorem eq_of_shape {t t' : HashTree} (hs : t.shape = t'.shape) (h : t.root H = t'.root H) :
    t = t' ∨ H.Collides (t.inputs H) (t'.inputs H) := by
  induction t generalizing t' with
  | given r =>
    cases t' with
    | given r' => exact .inl (congrArg given h)
    | leaf b => cases hs
    | node l' r' => cases hs
  | leaf b =>
    cases t' with
    | given r' => cases hs
    | leaf b' => exact (leaf_binding h).imp_left (congrArg leaf)
    | node l' r' => cases hs
  | node l r ihl ihr =>
    cases t' with
    | given r' => cases hs
    | leaf b' => cases hs
    | node l' r' =>
      obtain ⟨hsl, hsr⟩ := HashTree.node.inj hs
      rcases node_binding h with ⟨hl, hr⟩ | hc
      · rcases ihl hsl hl with rfl | hc
        · rcases ihr hsr hr with rfl | hc
          · exact .inl rfl
          · exact .inr (Collides.right hc)
        · exact .inr (Collides.left hc)
      · exact .inr hc

/-! ## Trees at their places -/

/-- A tree over the `i`-th run of `2 ^ k` leaves: those from `first` up to `last` are hashed, and
roots are given only of runs beside them. -/
inductive Covers (first last : Nat) (data : Nat → ByteArray) : Nat → Nat → HashTree → Prop
  | given {k i : Nat} {r : Digest} (h : (i + 1) * 2 ^ k ≤ first ∨ last ≤ i * 2 ^ k) :
      Covers first last data k i (given r)
  | leaf {i : Nat} : Covers first last data 0 i (leaf (data i))
  | node {k i : Nat} {l r : HashTree} (hl : Covers first last data k (2 * i) l)
      (hr : Covers first last data k (2 * i + 1) r) : Covers first last data (k + 1) i (node l r)

theorem joins_covers (first last : Nat) (data : Nat → ByteArray) :
    Forest.Joins node (Covers first last data) :=
  fun _ _ _ _ hl hr => .node hl hr

/-- **Two trees at one place with one root have the same leaves**, wherever both hash them, or their
inputs collide. -/
theorem Covers.binding {first last first' last' k i : Nat} {data data' : Nat → ByteArray}
    {t t' : HashTree} (h : Covers first last data k i t) (h' : Covers first' last' data' k i t')
    (hroot : t.root H = t'.root H) :
    (∀ j, i * 2 ^ k ≤ j → j < (i + 1) * 2 ^ k → first ≤ j → j < last → first' ≤ j → j < last' →
        data j = data' j) ∨
      H.Collides (t.inputs H) (t'.inputs H) := by
  induction h generalizing t' with
  | given hout => exact .inl fun j hlo hhi hf hl _ _ => absurd hout (by omega)
  | @leaf i =>
    cases h' with
    | given hout => exact .inl fun j hlo hhi _ _ hf hl => absurd hout (by omega)
    | leaf =>
      refine (leaf_binding hroot).imp_left fun hdata j hlo hhi _ _ _ _ => ?_
      rw [pow_zero] at hlo hhi
      obtain rfl : j = i := by omega
      exact hdata
  | @node k i l r _ _ ihl ihr =>
    cases h' with
    | given hout => exact .inl fun j hlo hhi _ _ hf hl => absurd hout (by omega)
    | node hl' hr' =>
      rcases node_binding hroot with ⟨hl, hr⟩ | hc
      · rcases ihl hl' hl with hleft | hc
        · rcases ihr hr' hr with hright | hc
          · -- The run of a node is the runs of its two halves.
            refine .inl fun j hlo hhi => ?_
            have hstart : i * 2 ^ (k + 1) = 2 * i * 2 ^ k := by ring
            have hmid : (2 * i + 1) * 2 ^ k = 2 * i * 2 ^ k + 2 ^ k := by ring
            have hend : (i + 1) * 2 ^ (k + 1) = (2 * i + 1 + 1) * 2 ^ k := by ring
            by_cases hj : j < (2 * i + 1) * 2 ^ k
            · exact hleft j (by omega) hj
            · exact hright j (by omega) (by omega)
          · exact .inr (Collides.right hc)
        · exact .inr (Collides.left hc)
      · exact .inr hc

end HashTree

/-! ## The hash tree of data -/

namespace HashTree

/-- The leaves of data, one after the other. -/
def ofLeaves (leaves : List ByteArray) : List (Subtree HashTree) :=
  leaves.map fun b => ⟨leaf b, 1⟩

/-- The hash tree of data that is cut into leaves. -/
def ofData (data : ByteArray) : Except MerkleError HashTree :=
  Forest.joined node (ofLeaves (Bytes.chunks data Sector.leafSize))

/-- Joining hash trees and joining their roots is the same. -/
theorem joined_root (H : Hasher) (ts : List (Subtree HashTree)) :
    Forest.joined H.node (ts.map (Subtree.map (root H))) = (Forest.joined node ts).map (root H) :=
  Forest.joined_map (fun _ _ => rfl) ts

theorem shape_ofLeaves (leaves : List ByteArray) :
    (ofLeaves leaves).map (Subtree.map shape)
      = List.replicate leaves.length ⟨leaf .empty, 1⟩ := by
  rw [ofLeaves, List.map_map]
  exact List.map_const' (b := (⟨leaf .empty, 1⟩ : Subtree HashTree))

theorem joined_shape (ts : List (Subtree HashTree)) :
    Forest.joined node (ts.map (Subtree.map shape)) = (Forest.joined node ts).map shape :=
  Forest.joined_map (fun _ _ => rfl) ts

/-- The leaves of data cover the run of leaves that they are put at. -/
theorem laid_ofLeaves {P : Forest.Placement HashTree} (data : Nat → ByteArray) (n : Nat) :
    ∀ (first : Nat), (∀ i, first ≤ i → i < first + n → P 0 i (leaf (data i))) →
      Forest.Laid P first (ofLeaves ((List.range' first n).map data)) (first + n) := by
  induction n with
  | zero => exact fun _ _ => .nil
  | succ n ih =>
    intro first h
    rw [List.range'_succ, List.map_cons]
    refine .cons (by rw [pow_zero, Nat.mul_one]) (h first le_rfl (by omega)) ?_
    rw [pow_zero, Nat.mul_one, show first + (n + 1) = first + 1 + n by omega]
    exact ih (first + 1) fun i hf hl => h i (by omega) (by omega)

end HashTree

/-- Everything that is hashed to get the root of data. -/
def Hasher.rootInputs (H : Hasher) (data : ByteArray) : List ByteArray :=
  match HashTree.ofData data with
  | .ok t => t.inputs H
  | .error _ => []

theorem Hasher.pushLeaves_eq (H : Hasher) {leaves : List ByteArray}
    (h : ∀ b ∈ leaves, b.size = Sector.leafSize) (f : Forest Digest) :
    H.pushLeaves leaves f
      = f.pushAll H.node ((HashTree.ofLeaves leaves).map (Subtree.map (HashTree.root H))) := by
  induction leaves generalizing f with
  | nil => rfl
  | cons b bs ih =>
    simp only [pushLeaves, HashTree.ofLeaves, Forest.pushAll, List.map_cons, List.foldlM_cons]
    rw [pushLeaf, if_pos (h b List.mem_cons_self)]
    exact congrArg (f.push H.node ⟨H.leaf b, 1⟩ >>= ·)
      (funext fun f => ih (fun c hc => h c (List.mem_cons_of_mem _ hc)) f)

theorem Bytes.size_of_mem_chunks {b c : ByteArray} {k : Nat} (h : c ∈ chunks b k) : c.size = k := by
  obtain ⟨i, hi, rfl⟩ := List.mem_map.mp h
  refine size_chunk b ?_
  calc i * k + k = (i + 1) * k := by ring
    _ ≤ b.size / k * k := Nat.mul_le_mul_right k (List.mem_range.mp hi)
    _ ≤ b.size := Nat.div_mul_le_self _ _

/-- **The root of data is that of its hash tree.** -/
theorem Hasher.merkleRoot_eq (H : Hasher) {data : ByteArray} (h : data.size % Sector.leafSize = 0) :
    H.merkleRoot data = (HashTree.ofData data).map (HashTree.root H) := by
  rw [merkleRoot, if_neg (not_not.mpr h), HashTree.ofData, ← HashTree.joined_root, Forest.joined,
    H.pushLeaves_eq fun _ hb => Bytes.size_of_mem_chunks hb]

end Trustless
