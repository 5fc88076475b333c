import Trustless.Proofs.Resolution.Header
import Trustless.Proofs.Resolution.Proof

/-!
# Two readers of one entry

A portal shows an entry in two places: in the answer to a read, and as a hop in the header of a
download. The two are read by checks of their own, in orders of their own, and a hop has to bring
along its type and the keys it stands under. What both ask for is the same, so that no object is
taken for one entry in one place and for another one in the other.

* `Proof.HasOwner`, `Proof.HasKeys`: an object that carries the keys of a hop.
* `Proof.readFrom_iff`: a hop is an entry with a type and keys.
* `Proof.readers_agree`: the two readers side by side.
-/

namespace Trustless.Resolution.Proof

open Json (Value)
open Registry (Entry HasKeyType plainType typeWithKey)

variable {v key : Value} {o : Option Value} {p : Proof} {body : ByteArray} {text : String}
  {owner : PublicKey} {dataKey : ByteVector 32}

/-- An object that carries the key of an owner: a point of the curve, in base64 beside the name of the
algorithm. -/
def HasOwner (v : Value) (owner : PublicKey) : Prop :=
  ∃ fields text bytes, v.field? "publickey" = some (.object fields) ∧
    (Value.object fields).field? "algorithm" = some (.string "ed25519") ∧
    (Value.object fields).field? "key" = some (.string text) ∧
    Base64.decode text = .ok bytes ∧ PublicKey.parse bytes = .ok owner

/-- An object that carries the keys of a hop, the data key in hex. -/
structure HasKeys (v : Value) (owner : PublicKey) (dataKey : ByteVector 32) : Prop where
  owner : HasOwner v owner
  dataKey : ∃ text, v.field? "datakey" = some (.string text) ∧
    Hex.decodeVector 32 text = .ok dataKey

/-! ## Texts and objects in fields -/

theorem bind_asString?_eq_some_iff :
    (o >>= Value.asString?) = some text ↔ o = some (.string text) := by
  rw [Option.bind_eq_bind, Option.bind_eq_some_iff]
  constructor
  · rintro ⟨v, rfl, hv⟩
    cases v with
    | string s => exact congrArg (some ∘ Value.string) (Option.some.inj hv)
    | _ => cases hv
  · rintro rfl
    exact ⟨_, rfl, rfl⟩

theorem filter_isObject_eq_some_iff : o.filter Value.isObject = some key ↔
    o = some key ∧ ∃ fields, key = .object fields := by
  rw [Option.filter_eq_some_iff]
  refine and_congr_right fun _ => ?_
  cases key with
  | object fields => exact ⟨fun _ => ⟨fields, rfl⟩, fun _ => rfl⟩
  | _ => exact ⟨nofun, nofun⟩

/-! ## Hops as entries -/

theorem keyOfValue_iff_hasOwner : keyOfValue v = .ok owner ↔ HasOwner v owner := by
  have hkey (text : String) : keyOfText? text = some owner ↔
      ∃ bytes, Base64.decode text = .ok bytes ∧ PublicKey.parse bytes = .ok owner := by
    unfold keyOfText?
    rw [Option.bind_eq_bind, Option.bind_eq_some_iff]
    simp only [toOption_eq_some_iff]
  rw [keyOfValue_eq_ok_iff, HasOwner]
  simp only [filter_isObject_eq_some_iff, bind_asString?_eq_some_iff, hkey]
  constructor
  · rintro ⟨_, text, ⟨hpublicKey, fields, rfl⟩, halgorithm, htext, bytes, hbytes, hparse⟩
    exact ⟨fields, text, bytes, hpublicKey, halgorithm, htext, hbytes, hparse⟩
  · rintro ⟨fields, text, bytes, hpublicKey, halgorithm, htext, hbytes, hparse⟩
    exact ⟨_, text, ⟨hpublicKey, fields, rfl⟩, halgorithm, htext, bytes, hbytes, hparse⟩

/-- **A hop is an entry with a type and keys.** -/
theorem readFrom_iff : p.ReadFrom v ↔
    p.entry.ReadFrom v ∧ (∃ t, v.field? "type" = some t) ∧ HasKeys v p.publicKey p.dataKey := by
  constructor
  · intro h
    obtain ⟨t, htype, -⟩ := Option.bind_eq_some_iff.mp h.type
    obtain ⟨dataKeyText, hdataKeyText, hdataKey⟩ := h.dataKey
    refine ⟨⟨h.object, .inr h.type, h.data, h.revision, h.signature⟩, ⟨t, htype⟩, ?_⟩
    exact ⟨keyOfValue_iff_hasOwner.mp h.key, dataKeyText,
      bind_asString?_eq_some_iff.mp hdataKeyText, hdataKey⟩
  · rintro ⟨h, ⟨t, ht⟩, hkeys⟩
    obtain ⟨dataKeyText, hdataKeyText, hdataKey⟩ := hkeys.dataKey
    -- An entry may come without a type, a hop may not.
    have htype : (v.field? "type" >>= Value.asNat?) = some plainType :=
      h.type.resolve_left fun hnone => by rw [hnone] at ht; cases ht
    exact ⟨h.object, htype, h.revision, keyOfValue_iff_hasOwner.mpr hkeys.owner, h.data,
      ⟨dataKeyText, bind_asString?_eq_some_iff.mpr hdataKeyText, hdataKey⟩, h.signature⟩

/-! ## Both readers -/

/-- How an object is read as a hop and as an answer. -/
structure ReadAlike (v : Value) (body : ByteArray) (hop : Nat) : Prop where
  /-- The hops that are read are the entries that are read as answers, if the object also has a type
  and carries the keys of the hop. -/
  read : ∀ p, ofValue v hop = .ok p ↔ Entry.ofResponse body = .ok p.entry ∧
    (∃ t, v.field? "type" = some t) ∧ HasKeys v p.publicKey p.dataKey
  /-- A hop is refused for its type exactly if the object says that it is of the type with the
  owner's key, whatever else is in it. -/
  hopType : ofValue v hop = .error (.unsupportedEntryType hop 2) ↔ HasKeyType v
  /-- An answer is refused for its type exactly then, too. -/
  answerType : Entry.ofResponse body = .error (.unsupportedEntryType 2) ↔ HasKeyType v

/-- **The two readers of entries agree.** Of every JSON text, whatever the number of the hop is, a hop
is read exactly if an answer is read and the object has a type and carries keys, with the same data,
revision and signature; and both are refused for their type exactly if it is 2. -/
theorem readers_agree (h : Value.ofBytes? body = some v) (hop : Nat) : ReadAlike v body hop := by
  have hbody := Entry.ofResponse_of_value h
  constructor
  case read =>
    intro p
    rw [ofValue_eq_ok_iff, readFrom_iff, hbody, Entry.ofValue_eq_ok_iff]
  case hopType =>
    have htype : ofValue v hop = .error (.unsupportedEntryType hop typeWithKey) ↔ _ :=
      ofValue_eq_unsupported_iff
    exact htype.trans (and_iff_left ⟨rfl, rfl⟩)
  case answerType =>
    have htype : Entry.ofValue v = .error (.unsupportedEntryType typeWithKey) ↔ _ :=
      Entry.ofValue_eq_unsupported_iff
    rw [hbody]
    exact htype.trans (and_iff_left rfl)

/-- A signed hop of the greatest revision is read in both places, and an object that holds nothing but
the type with the owner's key is refused in both. -/
theorem readers_agree_signed :
    (∃ p : Proof, p.publicKey = Keypair.zero.publicKey ∧
      Entry.sign .zero p.dataKey p.entry.data p.entry.revision = .ok p.entry ∧
      p.entry.revision.toNat + 1 = UInt64.size ∧
      Value.ofBytes? (Bytes.ofString p.toValue.compact) = some p.toValue ∧
      ofValue p.toValue 3 = .ok p ∧
      Entry.ofResponse (Bytes.ofString p.toValue.compact) = .ok p.entry ∧
      HasKeys p.toValue p.publicKey p.dataKey) ∧
    ofValue (.object [("type", .nat 2)]) 3 = .error (.unsupportedEntryType 3 2) ∧
    Entry.ofResponse (Bytes.ofString "\x7b\"type\":2\x7d") = .error (.unsupportedEntryType 2) := by
  constructor
  · obtain ⟨entry, hsign, hdata, hrevision⟩ : ∃ entry,
        Entry.sign .zero (.zero 32) ⟨#[0, 255]⟩ 18446744073709551615 = .ok entry ∧
        entry.data = ⟨#[0, 255]⟩ ∧ entry.revision = 18446744073709551615 :=
      ⟨_, Entry.sign_of_fits (by decide) _ _ _, rfl, rfl⟩
    let p : Proof := ⟨entry, .zero 32, Keypair.zero.publicKey⟩
    have hparse : Value.ofBytes? (Bytes.ofString p.toValue.compact) = some p.toValue :=
      Value.ofBytes?_compact (p.readable_toValue (by decide))
    have hread : ofValue p.toValue 3 = .ok p :=
      ofValue_eq_ok_iff.mpr (readFrom_toValue_iff.mpr
        (wellFormed_of_sign Keypair.parse_publicKey_zero hsign))
    obtain ⟨hanswer, -, hkeys⟩ := ((readers_agree hparse 3).read p).mp hread
    have hgreatest : entry.revision.toNat + 1 = UInt64.size := by
      rw [hrevision]
      rfl
    exact ⟨p, rfl, hdata.symm ▸ hrevision.symm ▸ hsign, hgreatest, hparse, hread, hanswer, hkeys⟩
  · have hparse : Value.ofBytes? (Bytes.ofString "\x7b\"type\":2\x7d")
        = some (.object [("type", .nat 2)]) := rfl
    have hagree := readers_agree hparse 3
    exact ⟨hagree.hopType.mpr ⟨rfl, rfl⟩, hagree.answerType.mpr ⟨rfl, rfl⟩⟩

end Trustless.Resolution.Proof
