import Trustless.Proofs.Bytes
import Trustless.Registry.Derivation

/-!
# Which keys can be the same

A keypair is hashed from the seed and one tag. A data key is hashed from the seed and both tags,
with the length of the first in front. Only half of a hash is kept of either. What was hashed twice
to the same half is therefore the same, or a collision.

Read behind a seed, the length and the tags of a data key give back the tags, so that no two data
keys are hashed from the same bytes. Nothing marks the tag of a keypair: a tag that starts with the
length of another one, and goes on with it, is hashed like the tags of a data key. That data key is
then the secret seed of the keypair.

* `derive_eq_ok_iff`: what it takes that keys are derived, and which they are.
* `taggedBytes`, `taggedBytes_inj`: the tags behind the seed of a data key are read back.
* `HalfCollides`: a collision of the first halves of SHA-512, and `halfHash_eq_iff`,
  `eq_or_halfCollides`: what is known of two texts of which the same is kept.
* `derive_keysApart`: keys of one kind are the same only for the same tags.
* `dataKey_hides_seed_iff`: when a data key is not the secret seed of a keypair.
-/

namespace Trustless.Registry.EntryKeys

variable {seed seed' : ByteArray} {keypairTag keypairTag' dataKeyTag dataKeyTag' : String}
  {keys keys' : EntryKeys} {x y : ByteArray}

/-! ## What is derived -/

/-- **Keys are derived exactly from seeds of 16 bytes and keypair tags of at most 255.** -/
theorem derive_eq_ok_iff : derive seed keypairTag dataKeyTag = .ok keys ↔
    seed.size = seedSize ∧ (Bytes.ofString keypairTag).size ≤ maxTagSize ∧
      keys = ⟨⟨halfHash (keypairInput seed keypairTag)⟩,
        halfHash (dataKeyInput seed keypairTag dataKeyTag)⟩ := by
  unfold derive
  by_cases hseed : seed.size = seedSize
  · rw [if_neg (not_not_intro hseed)]
    by_cases htag : (Bytes.ofString keypairTag).size > maxTagSize
    · rw [if_pos htag]
      exact ⟨nofun, fun h => absurd h.2.1 (Nat.not_le_of_lt htag)⟩
    · rw [if_neg htag, Except.ok.injEq]
      exact ⟨fun h => ⟨hseed, Nat.le_of_not_lt htag, h.symm⟩, fun h => h.2.2.symm⟩
  · rw [if_pos hseed]
    exact ⟨nofun, fun h => absurd h.1 hseed⟩

/-! ## Tags behind a seed -/

/-- The length of a tag as the byte that stands before it. -/
def lengthByte (tag : String) : UInt8 :=
  (Bytes.ofString tag).size.toUInt8

/-- A tag of at most 255 bytes has its length in one byte. -/
theorem toNat_lengthByte (h : (Bytes.ofString keypairTag).size ≤ maxTagSize) :
    (lengthByte keypairTag).toNat = (Bytes.ofString keypairTag).size :=
  UInt8.toNat_ofNat_of_lt' (Nat.lt_succ_of_le h)

/-- What stands behind the seed in a text that is hashed for a data key. -/
def taggedBytes (keypairTag dataKeyTag : String) : ByteArray :=
  [lengthByte keypairTag].toByteArray ++
    (Bytes.ofString keypairTag ++ Bytes.ofString dataKeyTag)

theorem dataKeyInput_eq (seed : ByteArray) (keypairTag dataKeyTag : String) :
    dataKeyInput seed keypairTag dataKeyTag = seed ++ taggedBytes keypairTag dataKeyTag := by
  unfold dataKeyInput taggedBytes
  rw [← ByteArray.append_toByteArray_singleton, ByteArray.append_assoc, ByteArray.append_assoc]
  rfl

/-- **The tags of a data key are read back** from the bytes behind the seed. -/
theorem taggedBytes_inj (h : (Bytes.ofString keypairTag).size ≤ maxTagSize)
    (h' : (Bytes.ofString keypairTag').size ≤ maxTagSize) :
    taggedBytes keypairTag dataKeyTag = taggedBytes keypairTag' dataKeyTag' ↔
      keypairTag = keypairTag' ∧ dataKeyTag = dataKeyTag' := by
  constructor
  · intro heq
    have hone : [lengthByte keypairTag].toByteArray.size
        = [lengthByte keypairTag'].toByteArray.size := rfl
    obtain ⟨hbyte, htags⟩ := (ByteArray.append_eq_append_iff_of_size_eq_left hone).mp heq
    -- The length of the tag says where it ends.
    have hlength : lengthByte keypairTag = lengthByte keypairTag' :=
      congrArg (Bytes.byteAt · 0) hbyte
    have hsize : (Bytes.ofString keypairTag).size = (Bytes.ofString keypairTag').size := by
      rw [← toNat_lengthByte h, ← toNat_lengthByte h', hlength]
    obtain ⟨hkeypair, hdata⟩ := (ByteArray.append_eq_append_iff_of_size_eq_left hsize).mp htags
    exact ⟨Bytes.ofString_inj.mp hkeypair, Bytes.ofString_inj.mp hdata⟩
  · rintro ⟨rfl, rfl⟩
    rfl

example : taggedBytes "12" "3456" ≠ taggedBytes "123" "456" := by decide

/-- No two data keys are hashed from the same bytes. -/
theorem dataKeyInput_inj (hseed : seed.size = seed'.size)
    (h : (Bytes.ofString keypairTag).size ≤ maxTagSize)
    (h' : (Bytes.ofString keypairTag').size ≤ maxTagSize) :
    dataKeyInput seed keypairTag dataKeyTag = dataKeyInput seed' keypairTag' dataKeyTag' ↔
      seed = seed' ∧ keypairTag = keypairTag' ∧ dataKeyTag = dataKeyTag' := by
  rw [dataKeyInput_eq, dataKeyInput_eq, ByteArray.append_eq_append_iff_of_size_eq_left hseed,
    taggedBytes_inj h h']

/-- No two keypairs are hashed from the same bytes. -/
theorem keypairInput_inj (hseed : seed.size = seed'.size) :
    keypairInput seed keypairTag = keypairInput seed' keypairTag' ↔
      seed = seed' ∧ keypairTag = keypairTag' := by
  unfold keypairInput
  rw [ByteArray.append_eq_append_iff_of_size_eq_left hseed, Bytes.ofString_inj]

/-- A data key and a keypair are hashed from the same bytes exactly if the tag of the keypair reads
like the length and the tags of the data key. -/
theorem dataKeyInput_eq_keypairInput_iff (seed : ByteArray) :
    dataKeyInput seed keypairTag' dataKeyTag' = keypairInput seed keypairTag ↔
      Bytes.ofString keypairTag = taggedBytes keypairTag' dataKeyTag' := by
  unfold keypairInput
  rw [dataKeyInput_eq, ByteArray.append_right_inj]
  exact eq_comm

/-! ## Halves of hashes -/

/-- Two different texts whose SHA-512 hashes agree on their first 32 bytes. -/
def HalfCollides (x y : ByteArray) : Prop :=
  x ≠ y ∧ (Hash.sha512 x).toByteArray.extract 0 32 = (Hash.sha512 y).toByteArray.extract 0 32

/-- What is kept of a hash is its first 32 bytes. -/
theorem toByteArray_halfHash (x : ByteArray) :
    (halfHash x).toByteArray = (Hash.sha512 x).toByteArray.extract 0 32 := by
  rw [halfHash, ByteVector.toByteArray_slice]

theorem halfHash_eq_iff : halfHash x = halfHash y ↔
    (Hash.sha512 x).toByteArray.extract 0 32 = (Hash.sha512 y).toByteArray.extract 0 32 := by
  rw [← toByteArray_halfHash, ← toByteArray_halfHash]
  exact ⟨congrArg ByteVector.toByteArray, ByteVector.ext⟩

theorem eq_or_halfCollides (h : halfHash x = halfHash y) : x = y ∨ HalfCollides x y :=
  (Classical.em (x = y)).imp_right fun hne => ⟨hne, halfHash_eq_iff.mp h⟩

/-! ## Keys of one kind -/

/-- How the keys that come of two derivations are told apart. -/
structure KeysApart (seed : ByteArray) (keypairTag dataKeyTag : String) (seed' : ByteArray)
    (keypairTag' dataKeyTag' : String) : Prop where
  /-- Keys are derived exactly from a seed of 16 bytes and a keypair tag of at most 255. -/
  accepts : (∃ keys, derive seed keypairTag dataKeyTag = .ok keys) ↔
    seed.size = 16 ∧ (Bytes.ofString keypairTag).size ≤ 255
  /-- The byte behind the seed of a data key is then the length of the keypair tag. -/
  length : ∀ keys, derive seed keypairTag dataKeyTag = .ok keys →
    (Bytes.byteAt (dataKeyInput seed keypairTag dataKeyTag) 16).toNat
      = (Bytes.ofString keypairTag).size
  /-- A data key tells the seed and both tags, or what was hashed collides. -/
  dataKey : ∀ keys keys', derive seed keypairTag dataKeyTag = .ok keys →
    derive seed' keypairTag' dataKeyTag' = .ok keys' → keys.dataKey = keys'.dataKey →
      (seed = seed' ∧ keypairTag = keypairTag' ∧ dataKeyTag = dataKeyTag') ∨
        HalfCollides (dataKeyInput seed keypairTag dataKeyTag)
          (dataKeyInput seed' keypairTag' dataKeyTag')
  /-- A keypair tells the seed and its tag, or what was hashed collides. -/
  keypair : ∀ keys keys', derive seed keypairTag dataKeyTag = .ok keys →
    derive seed' keypairTag' dataKeyTag' = .ok keys' → keys.keypair.seed = keys'.keypair.seed →
      (seed = seed' ∧ keypairTag = keypairTag') ∨
        HalfCollides (keypairInput seed keypairTag) (keypairInput seed' keypairTag')

/-- **Keys of one kind are the same only for the same seed and tags**, whatever the tags are, or two
different texts with one half of a SHA-512 hash were hashed for them. -/
theorem derive_keysApart (seed : ByteArray) (keypairTag dataKeyTag : String) (seed' : ByteArray)
    (keypairTag' dataKeyTag' : String) :
    KeysApart seed keypairTag dataKeyTag seed' keypairTag' dataKeyTag' := by
  constructor
  case accepts =>
    constructor
    · rintro ⟨keys, hkeys⟩
      obtain ⟨hseed, htag, -⟩ := derive_eq_ok_iff.mp hkeys
      exact ⟨hseed, htag⟩
    · rintro ⟨hseed, htag⟩
      exact ⟨_, derive_eq_ok_iff.mpr ⟨hseed, htag, rfl⟩⟩
  case length =>
    intro keys hkeys
    obtain ⟨hseed, htag, -⟩ := derive_eq_ok_iff.mp hkeys
    have hsize : seed.size = 16 := hseed
    have hbyte : Bytes.byteAt (dataKeyInput seed keypairTag dataKeyTag) (16 + 0)
        = lengthByte keypairTag := by
      rw [dataKeyInput_eq, Bytes.byteAt_append_right hsize, taggedBytes,
        Bytes.byteAt_append_left (Nat.zero_lt_succ 0)]
      rfl
    rw [← toNat_lengthByte htag, ← hbyte]
  case dataKey =>
    intro keys keys' hkeys hkeys' heq
    obtain ⟨hseed, htag, rfl⟩ := derive_eq_ok_iff.mp hkeys
    obtain ⟨hseed', htag', rfl⟩ := derive_eq_ok_iff.mp hkeys'
    exact (eq_or_halfCollides heq).imp_left
      (dataKeyInput_inj (hseed.trans hseed'.symm) htag htag').mp
  case keypair =>
    intro keys keys' hkeys hkeys' heq
    obtain ⟨hseed, -, rfl⟩ := derive_eq_ok_iff.mp hkeys
    obtain ⟨hseed', -, rfl⟩ := derive_eq_ok_iff.mp hkeys'
    exact (eq_or_halfCollides heq).imp_left (keypairInput_inj (hseed.trans hseed'.symm)).mp

/-! ## A data key and a keypair -/

/-- **A data key does not give away the secret seed of a keypair, exactly if the tag of the keypair
does not read like the length and the tags of the data key.** Then the two are different, or two
different texts with one half of a SHA-512 hash were hashed for them. -/
theorem dataKey_hides_seed_iff (h : derive seed keypairTag dataKeyTag = .ok keys)
    (h' : derive seed keypairTag' dataKeyTag' = .ok keys') :
    (keys'.dataKey ≠ keys.keypair.seed ∨
        HalfCollides (dataKeyInput seed keypairTag' dataKeyTag') (keypairInput seed keypairTag)) ↔
      Bytes.ofString keypairTag ≠ taggedBytes keypairTag' dataKeyTag' := by
  obtain ⟨-, -, rfl⟩ := derive_eq_ok_iff.mp h
  obtain ⟨-, -, rfl⟩ := derive_eq_ok_iff.mp h'
  rw [Ne, Ne, ← dataKeyInput_eq_keypairInput_iff seed]
  constructor
  · rintro (hne | ⟨hne, -⟩) heq
    · exact hne (congrArg halfHash heq)
    · exact hne heq
  · intro hne
    exact (Classical.em _).symm.imp_right fun heq => ⟨hne, halfHash_eq_iff.mp heq⟩

/-- A tag reads like the tags of a data key, but for the length in front of them. -/
theorem dataKey_hides_seed_wrong_length :
    ∃ keys keys', derive (Bytes.zeros 16) "\x03123456" "" = .ok keys ∧
      derive (Bytes.zeros 16) "12" "3456" = .ok keys' ∧
      Bytes.ofString "\x03123456" ≠ taggedBytes "12" "3456" ∧
      (keys'.dataKey ≠ keys.keypair.seed ∨
        HalfCollides (dataKeyInput (Bytes.zeros 16) "12" "3456")
          (keypairInput (Bytes.zeros 16) "\x03123456")) := by
  have hseed : (Bytes.zeros 16).size = seedSize := Bytes.size_zeros 16
  have h : derive (Bytes.zeros 16) "\x03123456" "" = .ok _ :=
    derive_eq_ok_iff.mpr ⟨hseed, by decide, rfl⟩
  have h' : derive (Bytes.zeros 16) "12" "3456" = .ok _ :=
    derive_eq_ok_iff.mpr ⟨hseed, by decide, rfl⟩
  have hreads : Bytes.ofString "\x03123456" ≠ taggedBytes "12" "3456" := by decide
  exact ⟨_, _, h, h', hreads, (dataKey_hides_seed_iff h h').mpr hreads⟩

/-- The data key of two empty tags is the secret seed of the keypair whose tag is a single zero.
Both are hashed from the seed and a zero. -/
theorem dataKey_is_seed :
    ∃ keys keys', derive (Bytes.zeros 16) "\x00" "" = .ok keys ∧
      derive (Bytes.zeros 16) "" "" = .ok keys' ∧
      dataKeyInput (Bytes.zeros 16) "" "" = keypairInput (Bytes.zeros 16) "\x00" ∧
      keys'.dataKey = keys.keypair.seed := by
  have hseed : (Bytes.zeros 16).size = seedSize := Bytes.size_zeros 16
  have hinput : dataKeyInput (Bytes.zeros 16) "" "" = keypairInput (Bytes.zeros 16) "\x00" :=
    (dataKeyInput_eq_keypairInput_iff _).mpr (by decide)
  exact ⟨_, _, derive_eq_ok_iff.mpr ⟨hseed, by decide, rfl⟩,
    derive_eq_ok_iff.mpr ⟨hseed, by decide, rfl⟩, hinput, congrArg halfHash hinput⟩

end Trustless.Registry.EntryKeys
