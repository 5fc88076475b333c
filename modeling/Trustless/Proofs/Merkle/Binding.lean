import Trustless.Proofs.Merkle.Completeness

/-!
# Range proofs are binding

Two accepted answers for one root are two trees of one height with one root. Going down from the
root, either the two inputs of a node agree, and so do the roots below, or they are a collision. What
is hashed twice at one place is therefore the same.

* `verify_agree`: two accepted answers agree wherever both ranges reach, or what they hash collides.
* `verify_unique`: for one range they have the same data and the same proof.
* `verify_sector`: against the root of a sector, the data is what stands there.
* `verify_binding`: all of it at once.
-/

namespace Trustless.RangeProof

open Merkle

variable {H : Hasher} {root : Digest} {offset size first last : Nat} {data proof : ByteArray}

/-! ## Two answers -/

/-- The byte at a place of the sector is found in the leaf of that place. -/
theorem byteAt_leafAt {data : ByteArray} {first offset i : Nat}
    (ho : offset = first * Sector.leafSize) (hi : offset ≤ i) :
    Bytes.byteAt (leafAt data first (i / Sector.leafSize)) (i % Sector.leafSize)
      = Bytes.byteAt data (i - offset) := by
  rw [leafAt, Bytes.byteAt_chunk _ _ (Nat.mod_lt _ (by decide))]
  congr 1
  simp only [Sector.leafSize] at *
  omega

theorem leaf_of_byte (ho : offset = first * Sector.leafSize)
    (hend : offset + size = last * Sector.leafSize) {i : Nat} (hi : offset ≤ i)
    (hj : i < offset + size) : first ≤ i / Sector.leafSize ∧ i / Sector.leafSize < last := by
  simp only [Sector.leafSize] at *
  omega

/-- **Two accepted answers for one root agree wherever both ranges reach**, or what they hash
collides. -/
theorem verify_agree {offset' size' : Nat} {data' proof' : ByteArray}
    (h : verify H root offset size data proof = .ok ())
    (h' : verify H root offset' size' data' proof' = .ok ()) :
    (∀ i, offset ≤ i → i < offset + size → offset' ≤ i → i < offset' + size' →
        Bytes.byteAt data (i - offset) = Bytes.byteAt data' (i - offset')) ∨
      H.Collides (inputs H offset size data proof) (inputs H offset' size' data' proof') := by
  obtain ⟨first, last, t, hr, hd, hp, ht, hroot⟩ := verify_eq_ok_iff.mp h
  obtain ⟨first', last', t', hr', hd', hp', ht', hroot'⟩ := verify_eq_ok_iff.mp h'
  have hcov := covers_hashTree hr hd hp ht
  have hcov' := covers_hashTree hr' hd' hp' ht'
  obtain ⟨-, hlast, ho, hend⟩ := leafRange_eq_ok_iff.mp hr
  obtain ⟨-, -, ho', hend'⟩ := leafRange_eq_ok_iff.mp hr'
  rw [inputs_eq ht, inputs_eq ht']
  refine (hcov.binding hcov' (hroot.trans hroot'.symm)).imp_left fun hleaf i hi hj hi' hj' => ?_
  -- A byte in both ranges lies in one leaf of the sector, which both trees hash.
  obtain ⟨hfirst, hlt⟩ := leaf_of_byte ho hend hi hj
  obtain ⟨hfirst', hlt'⟩ := leaf_of_byte ho' hend' hi' hj'
  have hsame := hleaf (i / Sector.leafSize) (by rw [Nat.zero_mul]; exact Nat.zero_le _)
    (by rw [Nat.zero_add, Nat.one_mul]; exact hlt.trans_le hlast) hfirst hlt hfirst' hlt'
  rw [← byteAt_leafAt ho hi, ← byteAt_leafAt ho' hi', hsame]

/-- **Two accepted answers for one range of one root have the same data and the same proof**, or
what they hash collides. -/
theorem verify_unique {data' proof' : ByteArray}
    (h : verify H root offset size data proof = .ok ())
    (h' : verify H root offset size data' proof' = .ok ()) :
    (data = data' ∧ proof = proof') ∨
      H.Collides (inputs H offset size data proof) (inputs H offset size data' proof') := by
  rcases verify_agree h h' with hbytes | hc
  · obtain ⟨first, last, t, hr, hd, hp, ht, hroot⟩ := verify_eq_ok_iff.mp h
    obtain ⟨first', last', t', hr', hd', hp', ht', hroot'⟩ := verify_eq_ok_iff.mp h'
    obtain ⟨rfl, rfl⟩ := Prod.mk.inj (Except.ok.inj (hr.symm.trans hr'))
    have hshape := shape_hashTree hr hd hd' hp hp' ht ht'
    rw [inputs_eq ht, inputs_eq ht']
    refine (HashTree.eq_of_shape hshape (hroot.trans hroot'.symm)).imp_left fun heq => ⟨?_, ?_⟩
    · refine Bytes.ext_byteAt (hd.trans hd'.symm) fun i hi => ?_
      have := hbytes (offset + i) (by omega) (by omega) (by omega) (by omega)
      rwa [Nat.add_sub_cancel_left] at this
    · have hhashes : hashes proof = hashes proof' := by
        rw [← givens_hashTree hr hp ht, ← givens_hashTree hr hp' ht', heq]
      rw [← ofHashes_hashes hp, ← ofHashes_hashes hp', hhashes]
  · exact .inr hc

/-! ## An answer and a sector -/

/-- The whole sector is an answer that needs no proof. -/
theorem leafRange_whole : leafRange 0 Sector.size = .ok (0, Sector.leaves) := rfl

theorem hashTree_whole (sector : ByteArray) :
    hashTree 0 Sector.size sector .empty = HashTree.ofData sector := by
  rw [hashTree_of_leafRange leafRange_whole, pieces, HashTree.ofData]
  exact congrArg (Forest.joined HashTree.node) (List.append_nil _)

theorem inputs_whole (H : Hasher) (sector : ByteArray) :
    inputs H 0 Sector.size sector .empty = H.rootInputs sector := by
  cases h : HashTree.ofData sector with
  | ok t => rw [inputs_eq ((hashTree_whole sector).trans h), Hasher.rootInputs, h]
  | error e => rw [inputs, hashTree_whole, h, Hasher.rootInputs, h]

theorem verify_whole {sector : ByteArray} (hs : sector.size = Sector.size)
    (h : H.merkleRoot sector = .ok root) :
    verify H root 0 Sector.size sector .empty = .ok () := by
  have hp : ByteArray.empty.size = proofSize 0 Sector.leaves := rfl
  obtain ⟨t, ht, -⟩ := exists_hashTree leafRange_whole hs hp
  refine verify_eq_ok_iff.mpr ⟨0, Sector.leaves, t, leafRange_whole, hs, hp, ht, ?_⟩
  rw [hashTree_whole] at ht
  rw [H.merkleRoot_eq (by rw [hs]; rfl), ht] at h
  exact Except.ok.inj h

/-- **Data that is accepted against the root of a sector stands there**, or what is hashed
collides. -/
theorem verify_sector {sector : ByteArray} (hs : sector.size = Sector.size)
    (hroot : H.merkleRoot sector = .ok root)
    (h : verify H root offset size data proof = .ok ()) :
    data = sector.extract offset (offset + size) ∨
      H.Collides (inputs H offset size data proof) (H.rootInputs sector) := by
  obtain ⟨first, last, t, hr, hd, -⟩ := verify_eq_ok_iff.mp h
  have hend : offset + size ≤ Sector.size := by
    obtain ⟨-, hlast, -, hend⟩ := leafRange_eq_ok_iff.mp hr
    rw [hend]
    exact Nat.mul_le_mul_right Sector.leafSize hlast
  rw [← inputs_whole]
  refine (verify_agree h (verify_whole hs hroot)).imp_left fun hbytes => ?_
  refine Bytes.ext_byteAt ?_ fun i hi => ?_
  · rw [ByteArray.size_extract, hd]
    omega
  · have := hbytes (offset + i) (by omega) (by omega) (Nat.zero_le _) (by omega)
    rw [Nat.add_sub_cancel_left, Nat.sub_zero] at this
    rw [this, Bytes.byteAt_extract sector (by omega)]

/-! ## Binding -/

/-- **Range proofs are binding**, for every hash function. Two accepted answers for one root agree
wherever both ranges reach and have one proof where the ranges are the same, and an answer accepted
against the root of a sector is what stands there; otherwise two different inputs with one hash can
be read off what was hashed. All of these are leaves of 64 bytes and pairs of hashes, each after its
own byte. -/
theorem verify_binding {offset' size' : Nat} {data' proof' : ByteArray}
    (h : verify H root offset size data proof = .ok ())
    (h' : verify H root offset' size' data' proof' = .ok ()) :
    ((∀ i, offset ≤ i → i < offset + size → offset' ≤ i → i < offset' + size' →
          Bytes.byteAt data (i - offset) = Bytes.byteAt data' (i - offset')) ∧
        (offset = offset' → size = size' → data = data' ∧ proof = proof') ∨
      H.Collides (inputs H offset size data proof) (inputs H offset' size' data' proof')) ∧
    (∀ sector, sector.size = Sector.size → H.merkleRoot sector = .ok root →
      data = sector.extract offset (offset + size) ∨
        H.Collides (inputs H offset size data proof) (H.rootInputs sector)) ∧
    ∀ x, x ∈ inputs H offset size data proof ∨ x ∈ inputs H offset' size' data' proof' →
      (∃ b : ByteArray, b.size = Sector.leafSize ∧ x = Hasher.leafInput b) ∨
        ∃ l r, x = Hasher.nodeInput l r := by
  refine ⟨?_, fun sector hs hroot => verify_sector hs hroot h, fun x hx => ?_⟩
  · rcases verify_agree h h' with hbytes | hc
    · by_cases hrange : offset = offset' ∧ size = size'
      · obtain ⟨rfl, rfl⟩ := hrange
        exact (verify_unique h h').imp_left fun hsame => ⟨hbytes, fun _ _ => hsame⟩
      · exact .inl ⟨hbytes, fun ho hs => absurd ⟨ho, hs⟩ hrange⟩
    · exact .inr hc
  · obtain ⟨_, _, _, hr, -⟩ := verify_eq_ok_iff.mp h
    obtain ⟨_, _, _, hr', -⟩ := verify_eq_ok_iff.mp h'
    rcases hx with hx | hx
    · exact mem_inputs hr hx
    · exact mem_inputs hr' hx

/-- Two answers that reach into each other, from a sector of zeros. -/
theorem verify_binding_zeros :
    ∃ root proof proof',
      verify .blake2b root 0 128 ((Bytes.zeros Sector.size).extract 0 128) proof = .ok () ∧
      verify .blake2b root 64 192 ((Bytes.zeros Sector.size).extract 64 256) proof' = .ok () ∧
      ((∀ i, 64 ≤ i → i < 128 →
          Bytes.byteAt ((Bytes.zeros Sector.size).extract 0 128) i
            = Bytes.byteAt ((Bytes.zeros Sector.size).extract 64 256) (i - 64)) ∨
        Hasher.blake2b.Collides
          (inputs .blake2b 0 128 ((Bytes.zeros Sector.size).extract 0 128) proof)
          (inputs .blake2b 64 192 ((Bytes.zeros Sector.size).extract 64 256) proof')) := by
  have hs := Bytes.size_zeros Sector.size
  have hr : leafRange 0 128 = .ok (0, 2) := rfl
  have hr' : leafRange 64 192 = .ok (1, 4) := rfl
  have h : verify .blake2b _ 0 128 _ _ = .ok () := verify_honestProof hs hr
  have h' : verify .blake2b _ 64 192 _ _ = .ok () := verify_honestProof hs hr'
  exact ⟨_, _, _, h, h', (verify_binding h h').1.imp_left fun hsame i hlo hhi =>
    hsame.1 i (Nat.zero_le _) hhi hlo (by omega)⟩

end Trustless.RangeProof
