import Trustless.Proofs.Link
import Trustless.Proofs.Merkle.HashTree
import Trustless.Registry.Entry

/-!
# What the hashes of an entry commit to

What an owner signs is hashed from the data key, the value and the revision; the name of an entry is
hashed from the key of its owner and the data key. In both texts all fields but the value have a fixed
length. The length of the whole text therefore tells the length of the value, whatever it is, and no
byte of the value can pass for one of the revision.

* `Entry.hashInput_inj`, `Entry.nameInput_inj`: the fields are read off what is hashed.
* `Hasher.eq_or_collides`: what is known of two texts with one hash.
* `Entry.hash_binding`, `Entry.name_binding`, `Entry.link_binding`: a signed hash, a name and a link
  tell the fields they are made of, or what is hashed for them collides.
-/

namespace Trustless

/-- Two texts with one hash are the same, or they collide. -/
theorem Hasher.eq_or_collides {H : Hasher} {x y : ByteArray} (h : H.hash x = H.hash y) :
    x = y ∨ H.Collides [x] [y] :=
  (Classical.em (x = y)).imp_right fun hne =>
    ⟨x, List.mem_singleton_self x, y, List.mem_singleton_self y, hne, h⟩

namespace Registry.Entry

variable {owner owner' : PublicKey} {dataKey dataKey' : ByteVector 32} {data data' : ByteArray}
  {revision revision' : UInt64}

/-! ## What is hashed -/

theorem size_hashInput (dataKey : ByteVector 32) (data : ByteArray) (revision : UInt64) :
    (hashInput dataKey data revision).size = data.size + 48 := by
  simp only [hashInput, ByteArray.size_append, Bytes.size_lengthPrefixed, ByteVector.size_eq]
  omega

/-- **The fields of an entry are read off what is hashed for its signature**, whatever the length of
the data is. -/
theorem hashInput_inj : hashInput dataKey data revision = hashInput dataKey' data' revision' ↔
    dataKey = dataKey' ∧ data = data' ∧ revision = revision' := by
  constructor
  · intro h
    have hdata : data.size = data'.size := by
      have hsize := congrArg ByteArray.size h
      rw [size_hashInput, size_hashInput] at hsize
      exact Nat.add_right_cancel hsize
    have hkey : dataKey.toByteArray.size = dataKey'.toByteArray.size := by
      rw [dataKey.size_eq, dataKey'.size_eq]
    have hlength : (Bytes.ofU64 data.size.toUInt64).toByteArray.size
        = (Bytes.ofU64 data'.size.toUInt64).toByteArray.size := by
      rw [ByteVector.size_eq, ByteVector.size_eq]
    -- Since the values have one length, every field stands at the same place in both texts.
    simp only [hashInput, Bytes.lengthPrefixed, ByteArray.append_assoc] at h
    obtain ⟨hdataKey, h⟩ := (ByteArray.append_eq_append_iff_of_size_eq_left hkey).mp h
    obtain ⟨-, h⟩ := (ByteArray.append_eq_append_iff_of_size_eq_left hlength).mp h
    obtain ⟨hvalue, hrevision⟩ := (ByteArray.append_eq_append_iff_of_size_eq_left hdata).mp h
    exact ⟨ByteVector.ext hdataKey, hvalue, Bytes.ofU64_inj.mp (ByteVector.ext hrevision)⟩
  · rintro ⟨rfl, rfl, rfl⟩
    rfl

/-- **The keys of an entry are read off what is hashed for its name.** -/
theorem nameInput_inj : nameInput owner dataKey = nameInput owner' dataKey' ↔
    owner = owner' ∧ dataKey = dataKey' := by
  constructor
  · intro h
    have howner : owner.bytes.toByteArray.size = owner'.bytes.toByteArray.size := by
      rw [owner.bytes.size_eq, owner'.bytes.size_eq]
    simp only [nameInput, ByteArray.append_assoc, ByteArray.append_right_inj] at h
    obtain ⟨hkey, hdataKey⟩ := (ByteArray.append_eq_append_iff_of_size_eq_left howner).mp h
    rw [PublicKey.mk.injEq]
    exact ⟨ByteVector.ext hkey, ByteVector.ext hdataKey⟩
  · rintro ⟨rfl, rfl⟩
    rfl

/-! ## What the hashes tell -/

/-- **A signed hash tells the data key, the value and the revision**, or what is hashed for it
collides. -/
theorem hash_binding (h : hash dataKey data revision = hash dataKey' data' revision') :
    (dataKey = dataKey' ∧ data = data' ∧ revision = revision') ∨ Hasher.blake2b.Collides
      [hashInput dataKey data revision] [hashInput dataKey' data' revision'] :=
  (Hasher.eq_or_collides h).imp_left hashInput_inj.mp

/-- **A name tells the owner and the data key**, or what is hashed for it collides. -/
theorem name_binding (h : name owner dataKey = name owner' dataKey') :
    (owner = owner' ∧ dataKey = dataKey') ∨
      Hasher.blake2b.Collides [nameInput owner dataKey] [nameInput owner' dataKey'] :=
  (Hasher.eq_or_collides h).imp_left nameInput_inj.mp

/-- **A link to an entry tells the owner and the data key**, or what is hashed for it collides. -/
theorem link_binding (h : link owner dataKey = link owner' dataKey') :
    (owner = owner' ∧ dataKey = dataKey') ∨
      Hasher.blake2b.Collides [nameInput owner dataKey] [nameInput owner' dataKey'] := by
  refine name_binding ?_
  rw [← Link.root_toEntry (name owner dataKey), ← Link.root_toEntry (name owner' dataKey')]
  exact congrArg Link.root h

end Registry.Entry

end Trustless
