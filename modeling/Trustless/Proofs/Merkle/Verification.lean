import Trustless.Merkle.RangeProof
import Trustless.Proofs.Merkle.HashTree

/-!
# What a range proof is checked by

The verifier puts given roots and leaves of data into one forest. The tilings on both sides of the
range make every push fit, so that it always ends with the perfect tree over the whole sector, in
which exactly the leaves of the range are hashed.

* `leafRange_eq_ok_iff`: the ranges that can be proved.
* `hashes_ofHashes`, `ofHashes_hashes`: a proof is the list of its hashes.
* `hashTree`, `inputs`: what a verification hashes.
* `verify_eq`: a verification compares the root of its hash tree.
* `exists_hashTree`, `covers_hashTree`: the hash tree always exists and covers the sector.
* `verify_eq_ok_iff`: what it takes that an answer is accepted.
* `givens_hashTree`, `leaves_hashTree`, `shape_hashTree`: what the tree is made of.
-/

namespace Trustless.RangeProof

open Merkle

/-! ## Ranges -/

/-- **The ranges that can be proved**: not empty, within the sector, and from leaf to leaf. -/
theorem leafRange_eq_ok_iff {offset size first last : Nat} :
    leafRange offset size = .ok (first, last) ↔
      first < last ∧ last ≤ Sector.leaves ∧ offset = first * Sector.leafSize ∧
        offset + size = last * Sector.leafSize := by
  rw [leafRange, Sector.size, Sector.leafSize, Sector.leaves]
  by_cases hempty : size = 0
  · rw [if_pos hempty]
    refine ⟨fun h => (nomatch h), fun h => ?_⟩
    omega
  · rw [if_neg hempty]
    by_cases hout : offset + size > 4194304
    · rw [if_pos hout]
      refine ⟨fun h => (nomatch h), fun h => ?_⟩
      omega
    · rw [if_neg hout]
      by_cases halign : offset % 64 ≠ 0 ∨ size % 64 ≠ 0
      · rw [if_pos halign]
        refine ⟨fun h => (nomatch h), fun h => ?_⟩
        omega
      · rw [if_neg halign, Except.ok.injEq, Prod.mk.injEq]
        omega

/-! ## The hashes of a proof -/

/-- Hashes in a row. -/
def ofHashes (ds : List Digest) : ByteArray :=
  ds.foldr (fun d b => d.toByteArray ++ b) .empty

theorem size_ofHashes (ds : List Digest) : (ofHashes ds).size = 32 * ds.length := by
  induction ds with
  | nil => rfl
  | cons d ds ih =>
    rw [ofHashes, List.foldr_cons, ← ofHashes, ByteArray.size_append, d.size_eq, ih,
      List.length_cons]
    omega

theorem ofHashes_append (ds es : List Digest) :
    ofHashes (ds ++ es) = ofHashes ds ++ ofHashes es := by
  induction ds with
  | nil => exact ByteArray.empty_append.symm
  | cons d ds ih =>
    show d.toByteArray ++ ofHashes (ds ++ es) = d.toByteArray ++ ofHashes ds ++ ofHashes es
    rw [ih, ByteArray.append_assoc]

theorem length_hashes (proof : ByteArray) : (hashes proof).length = proof.size / 32 := by
  rw [hashes, List.length_map, List.length_range]

theorem hashes_cons (d : Digest) (b : ByteArray) :
    hashes (d.toByteArray ++ b) = d :: hashes b := by
  have hsize : (d.toByteArray ++ b).size / 32 = b.size / 32 + 1 := by
    rw [ByteArray.size_append, d.size_eq]
    omega
  rw [hashes, hsize, List.range_succ_eq_map, List.map_cons, List.map_map]
  refine congrArg₂ List.cons ?_ (List.map_congr_left fun i hi => ?_)
  · have hfit : 32 * 0 + 32 ≤ (d.toByteArray ++ b).size := by
      rw [ByteArray.size_append, d.size_eq]
      omega
    rw [ByteVector.sliceD, dif_pos hfit]
    exact ByteVector.ext (ByteArray.extract_append_eq_left d.size_eq.symm)
  · have hi' := List.mem_range.mp hi
    have hfit : 32 * i + 32 ≤ b.size := by omega
    have hfit' : 32 * (i + 1) + 32 ≤ (d.toByteArray ++ b).size := by
      rw [ByteArray.size_append, d.size_eq]
      omega
    show ByteVector.sliceD _ (32 * (i + 1)) 32 = ByteVector.sliceD b (32 * i) 32
    rw [ByteVector.sliceD, ByteVector.sliceD, dif_pos hfit, dif_pos hfit']
    refine ByteVector.ext ?_
    show (d.toByteArray ++ b).extract (32 * (i + 1)) (32 * (i + 1) + 32) = _
    rw [show 32 * (i + 1) = 32 + 32 * i by omega, Nat.add_assoc]
    exact ByteArray.extract_append_size_add' d.size_eq.symm

theorem hashes_ofHashes (ds : List Digest) : hashes (ofHashes ds) = ds := by
  induction ds with
  | nil => rfl
  | cons d ds ih =>
    show hashes (d.toByteArray ++ ofHashes ds) = d :: ds
    rw [hashes_cons, ih]

theorem ofHashes_hashes {n : Nat} {proof : ByteArray} (h : proof.size = 32 * n) :
    ofHashes (hashes proof) = proof := by
  induction n generalizing proof with
  | zero =>
    obtain rfl := ByteArray.size_eq_zero_iff.mp (h.trans (Nat.mul_zero 32))
    rfl
  | succ n ih =>
    have hsplit : proof = (ByteVector.slice proof 0 32 (by omega)).toByteArray
        ++ proof.extract 32 proof.size := by
      show proof = proof.extract 0 32 ++ _
      rw [← ByteArray.extract_eq_extract_append_extract 32 (by omega) (by omega),
        ByteArray.extract_zero_size]
    have hrest : (proof.extract 32 proof.size).size = 32 * n := by
      rw [ByteArray.size_extract]
      omega
    conv_lhs => rw [hsplit]
    rw [hashes_cons]
    show _ ++ ofHashes (hashes (proof.extract 32 proof.size)) = proof
    rw [ih hrest]
    exact hsplit.symm

/-! ## What a verification hashes -/

/-- Subtrees of which only the root is given. -/
def givenTrees (roots : List Digest) (blocks : List Block) : List (Subtree HashTree) :=
  List.zipWith (fun r b => ⟨.given r, b.height⟩) roots blocks

/-- What stands before a range, in it and after it. -/
def pieces (first last : Nat) (data proof : ByteArray) : List (Subtree HashTree) :=
  givenTrees (hashes proof) (blocksBefore first)
    ++ HashTree.ofLeaves (Bytes.chunks data Sector.leafSize)
    ++ givenTrees ((hashes proof).drop (blocksBefore first).length) (blocksAfter last)

/-- The hash tree that a verification builds. -/
def hashTree (offset size : Nat) (data proof : ByteArray) : Except MerkleError HashTree := do
  let (first, last) ← leafRange offset size
  Forest.joined .node (pieces first last data proof)

/-- Everything that a verification hashes. -/
def inputs (H : Hasher) (offset size : Nat) (data proof : ByteArray) : List ByteArray :=
  match hashTree offset size data proof with
  | .ok t => t.inputs H
  | .error _ => []

/-- The bytes of a proof for a range of leaves. -/
def proofSize (first last : Nat) : Nat :=
  32 * ((blocksBefore first).length + (blocksAfter last).length)

variable {H : Hasher} {root : Digest} {offset size first last : Nat} {data proof : ByteArray}

theorem length_hashes_of_size (h : proof.size = proofSize first last) :
    (hashes proof).length = (blocksBefore first).length + (blocksAfter last).length := by
  rw [length_hashes, h, proofSize]
  omega

theorem subtrees_eq (H : Hasher) (roots : List Digest) (blocks : List Block) :
    subtrees roots blocks = (givenTrees roots blocks).map (Subtree.map (HashTree.root H)) := by
  rw [subtrees, givenTrees, List.map_zipWith]
  rfl

theorem hashTree_of_leafRange (hr : leafRange offset size = .ok (first, last)) :
    hashTree offset size data proof = Forest.joined .node (pieces first last data proof) := by
  rw [hashTree, hr]
  rfl

theorem verify_of_leafRange_error {e : MerkleError} (hr : leafRange offset size = .error e) :
    verify H root offset size data proof = .error e := by
  rw [verify, hr]
  rfl

theorem verify_of_size_ne (hr : leafRange offset size = .ok (first, last))
    (hd : data.size ≠ size) :
    verify H root offset size data proof = .error (.dataLength size data.size) := by
  rw [verify, hr]
  show (if data.size ≠ size then _ else _) = _
  rw [if_pos hd]
  rfl

theorem verify_of_proofSize_ne (hr : leafRange offset size = .ok (first, last))
    (hd : data.size = size) (hp : proof.size ≠ proofSize first last) :
    verify H root offset size data proof
      = .error (.proofLength (proofSize first last) proof.size) := by
  rw [verify, hr]
  show (if data.size ≠ size then _ else _) = _
  rw [if_neg (not_not.mpr hd)]
  show (if proof.size ≠ proofSize first last then _ else _) = _
  rw [if_pos hp]
  rfl

/-- **A verification compares the root of its hash tree.** -/
theorem verify_eq (hr : leafRange offset size = .ok (first, last)) (hd : data.size = size)
    (hp : proof.size = proofSize first last) :
    verify H root offset size data proof =
      (hashTree offset size data proof).map (HashTree.root H) >>= fun found =>
        if found ≠ root then .error .rootMismatch else .ok () := by
  rw [hashTree_of_leafRange hr, ← HashTree.joined_root, Forest.joined, pieces, List.map_append,
    List.map_append, ← subtrees_eq, ← subtrees_eq]
  simp only [verify, hr, Forest.pushAll, List.foldlM_append, bind_assoc]
  show (if data.size ≠ size then _ else _) = _
  rw [if_neg (not_not.mpr hd)]
  show (if proof.size ≠ proofSize first last then _ else _) = _
  rw [if_neg (not_not.mpr hp)]
  refine bind_congr fun f => ?_
  rw [H.pushLeaves_eq fun _ hb => Bytes.size_of_mem_chunks hb]
  refine bind_congr fun f => bind_congr fun f => bind_congr fun found => ?_
  split <;> rfl

/-! ## The tree over the sector -/

/-- Given roots, as many as a tiling has blocks, lie where its blocks lie. -/
theorem laid_givenTrees {P : Forest.Placement HashTree} {n m : Nat} {bs : List Block}
    (h : Tiles n bs m) :
    ∀ {roots : List Digest}, bs.length ≤ roots.length →
      (∀ k i r, n ≤ i * 2 ^ k → (i + 1) * 2 ^ k ≤ m → P k i (.given r)) →
      Forest.Laid P n (givenTrees roots bs) m := by
  induction h with
  | nil =>
    intro roots _ _
    rw [givenTrees, List.zipWith_nil_right]
    exact .nil
  | @cons n m k i bs hn h ih =>
    intro roots hlen hP
    cases roots with
    | nil => exact absurd hlen (by simp)
    | cons r rs =>
      have hstep : n ≤ (i + 1) * 2 ^ k := hn.le.trans (Nat.mul_le_mul_right _ (Nat.le_succ i))
      exact .cons hn (hP k i r hn.le h.le)
        (ih (Nat.le_of_succ_le_succ hlen) fun k' i' r' hlo hhi => hP k' i' r' (hstep.trans hlo) hhi)

/-- The leaves of the data, numbered as in the sector. -/
def leafAt (data : ByteArray) (first i : Nat) : ByteArray :=
  Bytes.chunk data Sector.leafSize (i - first)

theorem chunks_eq_leafAt (data : ByteArray) (first : Nat) :
    Bytes.chunks data Sector.leafSize
      = (List.range' first (data.size / Sector.leafSize)).map (leafAt data first) := by
  rw [Bytes.chunks, List.range'_eq_map_range, List.map_map]
  refine List.map_congr_left fun i _ => ?_
  rw [Function.comp, leafAt, Nat.add_sub_cancel_left]

theorem leaves_of_leafRange (hr : leafRange offset size = .ok (first, last))
    (hd : data.size = size) : first + data.size / Sector.leafSize = last := by
  obtain ⟨hlt, -, hoffset, hend⟩ := leafRange_eq_ok_iff.mp hr
  simp only [Sector.leafSize] at *
  omega

/-- **Given roots on both sides and the leaves between them make one tree** over the sector, with
whatever property they hand on to it. -/
theorem exists_hashTree_of_laid {P : Forest.Placement HashTree} (hj : Forest.Joins .node P)
    (hr : leafRange offset size = .ok (first, last)) (hd : data.size = size)
    (hbefore : Forest.Laid P 0 (givenTrees (hashes proof) (blocksBefore first)) first)
    (hdata : ∀ i, first ≤ i → i < last → P 0 i (.leaf (leafAt data first i)))
    (hafter : Forest.Laid P last
      (givenTrees ((hashes proof).drop (blocksBefore first).length) (blocksAfter last))
      Sector.leaves) :
    ∃ t, hashTree offset size data proof = .ok t ∧ P 16 0 t := by
  have hlast := leaves_of_leafRange hr hd
  have hleaves : Forest.Laid P first (HashTree.ofLeaves (Bytes.chunks data Sector.leafSize))
      last := by
    rw [chunks_eq_leafAt data first, ← hlast]
    exact HashTree.laid_ofLeaves _ _ first fun i hf hl => hdata i hf (hlast ▸ hl)
  rw [hashTree_of_leafRange hr, pieces]
  exact Forest.joined_of_laid hj (k := 16) ((hbefore.append hleaves).append hafter)

/-- **The hash tree of a verification always exists**: it covers the sector, and exactly the leaves
of the range are hashed in it. -/
theorem exists_hashTree (hr : leafRange offset size = .ok (first, last)) (hd : data.size = size)
    (hp : proof.size = proofSize first last) :
    ∃ t, hashTree offset size data proof = .ok t ∧
      HashTree.Covers first last (leafAt data first) 16 0 t := by
  obtain ⟨-, hlast, -, -⟩ := leafRange_eq_ok_iff.mp hr
  have hlen := length_hashes_of_size hp
  have hbefore : (blocksBefore first).length ≤ (hashes proof).length := by
    rw [hlen]
    exact Nat.le_add_right _ _
  have hafter : (blocksAfter last).length
      ≤ ((hashes proof).drop (blocksBefore first).length).length := by
    rw [List.length_drop, hlen, Nat.add_sub_cancel_left]
  refine exists_hashTree_of_laid (HashTree.joins_covers _ _ _) hr hd ?_ (fun i _ _ => .leaf) ?_
  · exact laid_givenTrees (tiles_tiling (Nat.zero_le first)) hbefore
      fun k i r _ hhi => .given (.inl hhi)
  · exact laid_givenTrees (tiles_tiling hlast) hafter fun k i r hlo _ => .given (.inr hlo)

theorem covers_hashTree (hr : leafRange offset size = .ok (first, last)) (hd : data.size = size)
    (hp : proof.size = proofSize first last) {t : HashTree}
    (h : hashTree offset size data proof = .ok t) :
    HashTree.Covers first last (leafAt data first) 16 0 t := by
  obtain ⟨u, hu, hcov⟩ := exists_hashTree hr hd hp
  obtain rfl := Except.ok.inj (h.symm.trans hu)
  exact hcov

/-- What it takes that an answer is accepted. -/
theorem verify_eq_ok_iff :
    verify H root offset size data proof = .ok () ↔
      ∃ first last t, leafRange offset size = .ok (first, last) ∧ data.size = size ∧
        proof.size = proofSize first last ∧ hashTree offset size data proof = .ok t ∧
        t.root H = root := by
  constructor
  · intro h
    cases hr : leafRange offset size with
    | error e => exact absurd (h.symm.trans (verify_of_leafRange_error hr)) (by simp)
    | ok range =>
      obtain ⟨first, last⟩ := range
      by_cases hd : data.size = size
      · by_cases hp : proof.size = proofSize first last
        · obtain ⟨t, ht, -⟩ := exists_hashTree hr hd hp
          refine ⟨first, last, t, rfl, hd, hp, ht, ?_⟩
          rw [verify_eq hr hd hp, ht] at h
          by_contra hne
          change (if t.root H ≠ root then _ else _) = _ at h
          rw [if_pos hne] at h
          cases h
        · exact absurd (h.symm.trans (verify_of_proofSize_ne hr hd hp)) (by simp)
      · exact absurd (h.symm.trans (verify_of_size_ne hr hd)) (by simp)
  · rintro ⟨first, last, t, hr, hd, hp, ht, rfl⟩
    rw [verify_eq hr hd hp, ht]
    show (if t.root H ≠ t.root H then _ else _) = _
    rw [if_neg (not_not.mpr rfl)]

/-! ## What the tree is made of -/

theorem givens_givenTrees :
    ∀ (roots : List Digest) (bs : List Block),
      ((givenTrees roots bs).flatMap fun s => s.root.givens) = roots.take bs.length
  | [], _ => by
    rw [List.take_nil]
    rfl
  | _ :: _, [] => rfl
  | r :: roots, b :: bs => by
    show [r] ++ ((givenTrees roots bs).flatMap fun s => s.root.givens) = _
    rw [givens_givenTrees roots bs]
    rfl

theorem leaves_givenTrees :
    ∀ (roots : List Digest) (bs : List Block),
      ((givenTrees roots bs).flatMap fun s => s.root.leaves) = []
  | [], _ => rfl
  | _ :: _, [] => rfl
  | _ :: roots, _ :: bs => leaves_givenTrees roots bs

/-- **Every hash of a proof is used, and only once.** -/
theorem givens_hashTree (hr : leafRange offset size = .ok (first, last))
    (hp : proof.size = proofSize first last) {t : HashTree}
    (h : hashTree offset size data proof = .ok t) : t.givens = hashes proof := by
  have hlen : ((hashes proof).drop (blocksBefore first).length).length
      = (blocksAfter last).length := by
    rw [List.length_drop, length_hashes_of_size hp, Nat.add_sub_cancel_left]
  have hleaves : ((HashTree.ofLeaves (Bytes.chunks data Sector.leafSize)).flatMap fun s =>
      s.root.givens) = [] := by
    rw [HashTree.ofLeaves, List.flatMap_map]
    exact List.flatMap_eq_nil_iff.mpr fun _ _ => rfl
  rw [hashTree_of_leafRange hr] at h
  rw [Forest.joined_parts (f := HashTree.givens) (fun _ _ => rfl) h, pieces, List.flatMap_append,
    List.flatMap_append, givens_givenTrees, givens_givenTrees, hleaves, List.append_nil, ← hlen,
    List.take_length, List.take_append_drop]

theorem leaves_hashTree (hr : leafRange offset size = .ok (first, last)) {t : HashTree}
    (h : hashTree offset size data proof = .ok t) :
    t.leaves = Bytes.chunks data Sector.leafSize := by
  rw [hashTree_of_leafRange hr] at h
  rw [Forest.joined_parts (f := HashTree.leaves) (fun _ _ => rfl) h, pieces, List.flatMap_append,
    List.flatMap_append, leaves_givenTrees, leaves_givenTrees, List.append_nil, List.nil_append,
    HashTree.ofLeaves, List.flatMap_map]
  exact List.flatMap_singleton' _

theorem shape_givenTrees :
    ∀ {roots : List Digest} {bs : List Block}, bs.length ≤ roots.length →
      (givenTrees roots bs).map (Subtree.map HashTree.shape)
        = bs.map fun b => ⟨.given default, b.height⟩
  | [], [], _ => rfl
  | [], _ :: _, h => absurd h (by simp)
  | _ :: _, [], _ => rfl
  | _ :: _, _ :: _, h => congrArg (List.cons _) (shape_givenTrees (Nat.le_of_succ_le_succ h))

/-- The shape of the tree follows from the range. -/
theorem shape_hashTree {data' proof' : ByteArray}
    (hr : leafRange offset size = .ok (first, last)) (hd : data.size = size)
    (hd' : data'.size = size) (hp : proof.size = proofSize first last)
    (hp' : proof'.size = proofSize first last) {t t' : HashTree}
    (h : hashTree offset size data proof = .ok t)
    (h' : hashTree offset size data' proof' = .ok t') : t.shape = t'.shape := by
  have hpieces : ∀ {d p : ByteArray}, d.size = size → p.size = proofSize first last →
      (pieces first last d p).map (Subtree.map HashTree.shape)
        = (blocksBefore first).map (fun b => ⟨.given default, b.height⟩)
          ++ List.replicate (size / Sector.leafSize) ⟨.leaf .empty, 1⟩
          ++ (blocksAfter last).map (fun b => ⟨.given default, b.height⟩) := by
    intro d p hd hp
    have hlen := length_hashes_of_size hp
    rw [pieces, List.map_append, List.map_append, shape_givenTrees (by omega),
      shape_givenTrees (by rw [List.length_drop]; omega), HashTree.shape_ofLeaves,
      Bytes.length_chunks, hd]
  rw [hashTree_of_leafRange hr] at h h'
  have hs := HashTree.joined_shape (pieces first last data proof)
  have hs' := HashTree.joined_shape (pieces first last data' proof')
  rw [hpieces hd hp, h] at hs
  rw [hpieces hd' hp', h'] at hs'
  exact Except.ok.inj (hs.symm.trans hs')

theorem inputs_eq {t : HashTree} (h : hashTree offset size data proof = .ok t) :
    inputs H offset size data proof = t.inputs H := by
  rw [inputs, h]

/-- **A verification only asks for the hashes of its inputs.** -/
theorem verify_congr {H' : Hasher}
    (h : ∀ x ∈ inputs H offset size data proof, H.hash x = H'.hash x) :
    verify H root offset size data proof = verify H' root offset size data proof := by
  cases hr : leafRange offset size with
  | error e => rw [verify_of_leafRange_error hr, verify_of_leafRange_error hr]
  | ok range =>
    obtain ⟨first, last⟩ := range
    by_cases hd : data.size = size
    · by_cases hp : proof.size = proofSize first last
      · obtain ⟨t, ht, -⟩ := exists_hashTree hr hd hp
        rw [inputs_eq ht] at h
        rw [verify_eq hr hd hp, verify_eq hr hd hp, ht, Except.map, HashTree.root_congr h]
        rfl
      · rw [verify_of_proofSize_ne hr hd hp, verify_of_proofSize_ne hr hd hp]
    · rw [verify_of_size_ne hr hd, verify_of_size_ne hr hd]

/-- Everything that is hashed is a leaf of 64 bytes or two hashes, each after its own byte. -/
theorem mem_inputs (hr : leafRange offset size = .ok (first, last)) {x : ByteArray}
    (h : x ∈ inputs H offset size data proof) :
    (∃ b : ByteArray, b.size = Sector.leafSize ∧ x = Hasher.leafInput b) ∨
      ∃ l r, x = Hasher.nodeInput l r := by
  cases ht : hashTree offset size data proof with
  | error e =>
    rw [inputs, ht] at h
    exact absurd h List.not_mem_nil
  | ok t =>
    rw [inputs_eq ht] at h
    refine (HashTree.mem_inputs h).imp_left fun ⟨b, hb, hx⟩ => ⟨b, ?_, hx⟩
    rw [leaves_hashTree hr ht] at hb
    exact Bytes.size_of_mem_chunks hb

end Trustless.RangeProof
