import Trustless.Proofs.Merkle.HashTree

/-!
# A root commits to the whole data

Data of any number of leaves is put into one tree, whose shape follows from that number. Nothing of
the shape is needed to go back from the root: a leaf and a node are hashed after different bytes, so
that two trees with one root have the same shape and the same leaves, or two inputs collide. Leaves
in their order are the data, and so is their number its length.

* `HashTree.eq_of_hashed`: two trees in which everything is hashed.
* `Hasher.exists_merkleRoot_iff`: which data has a root.
* `Hasher.merkleRoot_congr`: a root only asks for the hashes of its inputs.
* `Hasher.merkleRoot_binding`: data with one root is equal, or what is hashed for it collides.
-/

namespace Trustless

variable {H : Hasher} {data data' : ByteArray} {root : Digest}

/-- No leaf is hashed like a node. -/
theorem Hasher.leafInput_ne_nodeInput (b : ByteArray) (l r : Digest) :
    leafInput b ≠ nodeInput l r := by
  intro h
  have hfirst := congrArg (Bytes.byteAt · 0) h
  rw [leafInput, nodeInput, ByteArray.append_assoc, Bytes.byteAt_append_left (by decide),
    Bytes.byteAt_append_left (by decide)] at hfirst
  exact absurd hfirst (by decide)

/-! ## Trees in which everything is hashed -/

namespace HashTree

/-- **Two trees without given roots that have one root are equal**, whatever their shapes are, or
their inputs collide. -/
theorem eq_of_hashed {t t' : HashTree} (ht : t.givens = []) (ht' : t'.givens = [])
    (h : t.root H = t'.root H) : t = t' ∨ H.Collides (t.inputs H) (t'.inputs H) := by
  induction t generalizing t' with
  | given r => cases ht
  | leaf b =>
    cases t' with
    | given r' => cases ht'
    | leaf b' => exact (leaf_binding h).imp_left (congrArg leaf)
    | node l' r' =>
      exact .inr ⟨_, List.mem_cons_self, _, List.mem_cons_self,
        Hasher.leafInput_ne_nodeInput b _ _, h⟩
  | node l r ihl ihr =>
    cases t' with
    | given r' => cases ht'
    | leaf b' =>
      exact .inr ⟨_, List.mem_cons_self, _, List.mem_cons_self,
        (Hasher.leafInput_ne_nodeInput b' _ _).symm, h⟩
    | node l' r' =>
      obtain ⟨htl, htr⟩ := List.append_eq_nil_iff.mp ht
      obtain ⟨htl', htr'⟩ := List.append_eq_nil_iff.mp ht'
      rcases node_binding h with ⟨hl, hr⟩ | hc
      · rcases ihl htl htl' hl with rfl | hc
        · rcases ihr htr htr' hr with rfl | hc
          · exact .inl rfl
          · exact .inr (Collides.right hc)
        · exact .inr (Collides.left hc)
      · exact .inr hc

/-- Nothing is given in the tree of data. -/
theorem givens_ofData {t : HashTree} (h : ofData data = .ok t) : t.givens = [] := by
  rw [Forest.joined_parts (f := givens) (fun _ _ => rfl) h, ofLeaves, List.flatMap_map]
  exact List.flatMap_eq_nil_iff.mpr fun _ _ => rfl

/-- The leaves of the tree of data are its runs, in order. -/
theorem leaves_ofData {t : HashTree} (h : ofData data = .ok t) :
    t.leaves = Bytes.chunks data Sector.leafSize := by
  rw [Forest.joined_parts (f := leaves) (fun _ _ => rfl) h, ofLeaves, List.flatMap_map]
  exact List.flatMap_singleton' _

/-- There is a tree of data as soon as it has a leaf. -/
theorem exists_ofData (h : Sector.leafSize ≤ data.size) : ∃ t, ofData data = .ok t := by
  have hlaid : Forest.Laid (fun _ _ _ => True) 0 (ofLeaves (Bytes.chunks data Sector.leafSize))
      (data.size / Sector.leafSize) := by
    have := laid_ofLeaves (P := fun _ _ _ => True) (Bytes.chunk data Sector.leafSize)
      (data.size / Sector.leafSize) 0 fun _ _ _ => trivial
    rwa [← List.range_eq_range', Nat.zero_add] at this
  have hjoins : Forest.Joins node fun _ _ _ => True := fun _ _ _ _ _ _ => trivial
  obtain ⟨⟨trees⟩, hpush, hstands⟩ := Forest.Stands.pushAll hjoins hlaid (f := .empty) .nil
  rw [ofData, Forest.joined, hpush]
  cases trees with
  | nil =>
    -- A row without trees covers no leaf.
    have hpos : 0 < data.size / Sector.leafSize := Nat.div_pos h (by decide)
    generalize data.size / Sector.leafSize = n at hpos hstands
    cases hstands
    exact absurd hpos (Nat.lt_irrefl 0)
  | cons newest older => exact ⟨_, rfl⟩

end HashTree

/-! ## Data and its leaves -/

/-- Data that consists of runs is determined by them. -/
theorem Bytes.eq_of_chunks_eq {b c : ByteArray} {k : Nat} (hk : 0 < k) (hb : b.size % k = 0)
    (hc : c.size % k = 0) (h : chunks b k = chunks c k) : b = c := by
  have hcount : b.size / k = c.size / k := by
    rw [← length_chunks, h, length_chunks]
  have hsize : b.size = c.size := by
    rw [← Nat.div_mul_cancel (Nat.dvd_of_mod_eq_zero hb), hcount,
      Nat.div_mul_cancel (Nat.dvd_of_mod_eq_zero hc)]
  refine ext_byteAt hsize fun i hi => ?_
  have hrun : i / k < b.size / k :=
    Nat.div_lt_div_of_lt_of_dvd (Nat.dvd_of_mod_eq_zero hb) hi
  have hchunk : chunk b k (i / k) = chunk c k (i / k) := by
    have hplace := congrArg (·[i / k]?) h
    simp only [chunks, List.getElem?_map, ← hcount] at hplace
    rw [List.getElem?_range hrun] at hplace
    exact Option.some.inj hplace
  rw [← Nat.div_add_mod' i k, ← byteAt_chunk b _ (Nat.mod_lt i hk),
    ← byteAt_chunk c _ (Nat.mod_lt i hk), hchunk]

namespace Hasher

/-! ## Roots of data -/

/-- What it takes that data has a given root. -/
theorem merkleRoot_eq_ok_iff : H.merkleRoot data = .ok root ↔
    data.size % Sector.leafSize = 0 ∧ ∃ t, HashTree.ofData data = .ok t ∧ t.root H = root := by
  by_cases hsize : data.size % Sector.leafSize = 0
  · rw [H.merkleRoot_eq hsize]
    cases HashTree.ofData data with
    | error e =>
      constructor
      · intro h
        cases h
      · rintro ⟨-, _, ⟨⟩, -⟩
    | ok t =>
      constructor
      · intro h
        cases h
        exact ⟨hsize, t, rfl, rfl⟩
      · rintro ⟨-, _, ⟨⟩, rfl⟩
        rfl
  · rw [merkleRoot, if_pos hsize]
    constructor
    · intro h
      cases h
    · exact fun h => absurd h.1 hsize

/-- **Data has a root exactly if it is not empty and consists of whole leaves.** -/
theorem exists_merkleRoot_iff (H : Hasher) (data : ByteArray) :
    (∃ root, H.merkleRoot data = .ok root) ↔
      data.size ≠ 0 ∧ data.size % Sector.leafSize = 0 := by
  constructor
  · rintro ⟨root, h⟩
    obtain ⟨hsize, t, ht, -⟩ := merkleRoot_eq_ok_iff.mp h
    refine ⟨fun hempty => ?_, hsize⟩
    obtain rfl := ByteArray.size_eq_zero_iff.mp hempty
    cases ht
  · rintro ⟨hne, hsize⟩
    have hleaf : Sector.leafSize ≤ data.size :=
      Nat.le_of_dvd (Nat.pos_of_ne_zero hne) (Nat.dvd_of_mod_eq_zero hsize)
    obtain ⟨t, ht⟩ := HashTree.exists_ofData hleaf
    exact ⟨_, merkleRoot_eq_ok_iff.mpr ⟨hsize, t, ht, rfl⟩⟩

theorem rootInputs_eq {t : HashTree} (h : HashTree.ofData data = .ok t) :
    H.rootInputs data = t.inputs H := by
  rw [rootInputs, h]

/-- **A root only asks for the hashes of its inputs.** -/
theorem merkleRoot_congr {H' : Hasher} (h : ∀ x ∈ H.rootInputs data, H.hash x = H'.hash x) :
    H.merkleRoot data = H'.merkleRoot data := by
  by_cases hsize : data.size % Sector.leafSize = 0
  · rw [H.merkleRoot_eq hsize, H'.merkleRoot_eq hsize]
    cases ht : HashTree.ofData data with
    | error e => rfl
    | ok t =>
      rw [rootInputs_eq ht] at h
      exact congrArg Except.ok (HashTree.root_congr h)
  · rw [merkleRoot, merkleRoot, if_pos hsize, if_pos hsize]

/-- Everything that is hashed for a root is a leaf of 64 bytes or two hashes, each after its own
byte. -/
theorem mem_rootInputs {x : ByteArray} (h : x ∈ H.rootInputs data) :
    (∃ b : ByteArray, b.size = Sector.leafSize ∧ x = leafInput b) ∨
      ∃ l r, x = nodeInput l r := by
  cases ht : HashTree.ofData data with
  | error e =>
    rw [rootInputs, ht] at h
    exact absurd h List.not_mem_nil
  | ok t =>
    rw [rootInputs_eq ht] at h
    refine (HashTree.mem_inputs h).imp_left fun ⟨b, hb, hx⟩ => ⟨b, ?_, hx⟩
    rw [HashTree.leaves_ofData ht] at hb
    exact Bytes.size_of_mem_chunks hb

/-- **A root commits to data of any length**, for every hash function. Two byte strings with one
root are equal, or two different inputs with one hash can be read off what was hashed for them, all
of which are leaves of 64 bytes and pairs of hashes, each after its own byte. -/
theorem merkleRoot_binding (H : Hasher) {data data' : ByteArray} {root : Digest}
    (h : H.merkleRoot data = .ok root) (h' : H.merkleRoot data' = .ok root) :
    (data = data' ∨ H.Collides (H.rootInputs data) (H.rootInputs data')) ∧
    ∀ x, x ∈ H.rootInputs data ∨ x ∈ H.rootInputs data' →
      (∃ b : ByteArray, b.size = Sector.leafSize ∧ x = leafInput b) ∨
        ∃ l r, x = nodeInput l r := by
  obtain ⟨hsize, t, ht, hroot⟩ := merkleRoot_eq_ok_iff.mp h
  obtain ⟨hsize', t', ht', hroot'⟩ := merkleRoot_eq_ok_iff.mp h'
  refine ⟨?_, fun x hx => hx.elim mem_rootInputs mem_rootInputs⟩
  rw [rootInputs_eq ht, rootInputs_eq ht']
  refine (HashTree.eq_of_hashed (HashTree.givens_ofData ht) (HashTree.givens_ofData ht')
    (hroot.trans hroot'.symm)).imp_left fun heq => ?_
  refine Bytes.eq_of_chunks_eq (by decide) hsize hsize' ?_
  rw [← HashTree.leaves_ofData ht, ← HashTree.leaves_ofData ht', heq]

/-- A hash function with a single value. -/
def constant : Hasher :=
  ⟨fun _ => .zero 32⟩

/-- All data that has a root has this one. -/
theorem merkleRoot_constant (hne : data.size ≠ 0) (hsize : data.size % Sector.leafSize = 0) :
    constant.merkleRoot data = .ok (.zero 32) := by
  obtain ⟨root, h⟩ := (constant.exists_merkleRoot_iff data).mpr ⟨hne, hsize⟩
  obtain ⟨-, t, ht, hroot⟩ := merkleRoot_eq_ok_iff.mp h
  have hgivens := HashTree.givens_ofData ht
  rw [h, ← hroot]
  cases t with
  | given r => cases hgivens
  | leaf b => rfl
  | node l r => rfl

/-- One leaf and three leaves with one root. -/
theorem merkleRoot_binding_constant :
    constant.merkleRoot (Bytes.zeros 64) = .ok (.zero 32) ∧
    constant.merkleRoot (Bytes.zeros 192) = .ok (.zero 32) ∧
    constant.Collides (constant.rootInputs (Bytes.zeros 64))
      (constant.rootInputs (Bytes.zeros 192)) := by
  have h : constant.merkleRoot (Bytes.zeros 64) = .ok (.zero 32) :=
    merkleRoot_constant (by rw [Bytes.size_zeros]; decide) (by rw [Bytes.size_zeros]; decide)
  have h' : constant.merkleRoot (Bytes.zeros 192) = .ok (.zero 32) :=
    merkleRoot_constant (by rw [Bytes.size_zeros]; decide) (by rw [Bytes.size_zeros]; decide)
  refine ⟨h, h', (merkleRoot_binding constant h h').1.resolve_left fun heq => ?_⟩
  have hsize := congrArg ByteArray.size heq
  rw [Bytes.size_zeros, Bytes.size_zeros] at hsize
  cases hsize

end Hasher

end Trustless
