import Mathlib.Data.List.Forall2
import Trustless.Proofs.Encoding.Base64
import Trustless.Proofs.Key
import Trustless.Proofs.Registry.Exchange
import Trustless.Resolution.Proof

/-!
# Hops are read back from a header

A header holds its hops in JSON, with keys and signatures as text of three kinds. What is read from
an object is decided field by field, so that a hop is read back from its own object as soon as its
key is one and its signature has the right length. All hops that are ever read are like that.

* `Proof.ofValue_eq_ok_iff`: what it takes that a hop is read from a value.
* `Proof.WellFormed`, `Proof.readFrom_toValue_iff`: the hops that are read back.
* `Proof.parseAll_eq_ok_iff`: what it takes that hops are read from a header.
* `Proof.parseAll_encodeAll_iff`, `Proof.parseAll_encodeAll`: writing and reading headers.
-/

namespace Trustless.Resolution.Proof

open Json (Value)
open Registry (Entry plainType algorithm signatureOfHex?)
open Registry.Entry (signatureOfHex?_eq_some_iff)

variable {v : Value} {vs : List Value} {p : Proof} {ps : List Proof} {hop : Nat}
  {text field : String} {k : PublicKey}

/-! ## Reading one hop -/

theorem textField_eq_ok_iff :
    textField v hop field = .ok text ↔ (v.field? field >>= Value.asString?) = some text := by
  unfold textField
  cases v.field? field >>= Value.asString? with
  | none => exact ⟨nofun, nofun⟩
  | some s => rw [Except.ok.injEq, Option.some.injEq]

theorem keyOfText?_eq_some_iff : keyOfText? text = some k ↔
    Base64.decode text = .ok k.bytes.toByteArray ∧ Ed25519.isKey k.bytes = true := by
  unfold keyOfText?
  rw [Option.bind_eq_bind, Option.bind_eq_some_iff]
  simp only [toOption_eq_some_iff, PublicKey.parse_eq_ok_iff]
  exact ⟨fun ⟨b, hb, hbytes, hkey⟩ => ⟨hbytes ▸ hb, hkey⟩, fun h => ⟨_, h.1, rfl, h.2⟩⟩

theorem keyOfValue_eq_ok_iff : keyOfValue v = .ok k ↔
    ∃ key text, (v.field? "publickey").filter Value.isObject = some key ∧
      (key.field? "algorithm" >>= Value.asString?) = some algorithm ∧
      (key.field? "key" >>= Value.asString?) = some text ∧ keyOfText? text = some k := by
  constructor
  · intro h
    unfold keyOfValue at h
    dsimp only at h
    split at h
    · rename_i key hkey
      split at h
      · rename_i name hname
        split at h
        · cases h
        · rename_i halgorithm
          split at h
          · rename_i text htext
            split at h
            · rename_i k' hk
              cases h
              exact ⟨key, text, hkey, not_not.mp halgorithm ▸ hname, htext, hk⟩
            · cases h
          · cases h
      · cases h
    · cases h
  · rintro ⟨key, text, hkey, hname, htext, hk⟩
    unfold keyOfValue
    rw [hkey]
    dsimp only
    rw [hname, htext]
    dsimp only
    rw [if_neg (not_not.mpr rfl), hk]
    rfl

/-- What it takes that a hop is read from a value. -/
structure ReadFrom (p : Proof) (v : Value) : Prop where
  object : v.isObject = true
  type : (v.field? "type" >>= Value.asNat?) = some plainType
  revision : ∃ n, (v.field? "revision" >>= Value.asNat?) = some n ∧ n.toUInt64 = p.entry.revision
  key : keyOfValue v = .ok p.publicKey
  data : ∃ text, (v.field? "data" >>= Value.asString?) = some text ∧
    Hex.decode text = .ok p.entry.data
  dataKey : ∃ text, (v.field? "datakey" >>= Value.asString?) = some text ∧
    Hex.decodeVector 32 text = .ok p.dataKey
  signature : ∃ text, (v.field? "signature" >>= Value.asString?) = some text ∧
    signatureOfHex? text = some p.entry.signature

/-- **A hop is read field by field**, whatever its number is. -/
theorem ofValue_eq_ok_iff : ofValue v hop = .ok p ↔ p.ReadFrom v := by
  constructor
  · intro h
    unfold ofValue at h
    dsimp only at h
    split at h
    · cases h
    · rename_i hobject
      split at h
      · rename_i type htype
        split at h
        · cases h
        · split at h
          · cases h
          · rename_i hplain
            split at h
            · rename_i n hrevision
              obtain ⟨k, hk, h⟩ := bind_eq_ok_iff.mp h
              obtain ⟨dataText, hdataText, h⟩ := bind_eq_ok_iff.mp h
              obtain ⟨data, hdata, h⟩ := bind_eq_ok_iff.mp h
              obtain ⟨keyText, hkeyText, h⟩ := bind_eq_ok_iff.mp h
              obtain ⟨dataKey, hdataKey, h⟩ := bind_eq_ok_iff.mp h
              obtain ⟨signatureText, hsignatureText, h⟩ := bind_eq_ok_iff.mp h
              split at h
              · rename_i signature hsignature
                cases h
                exact ⟨by simpa using hobject, not_not.mp hplain ▸ htype, ⟨n, hrevision, rfl⟩,
                  mapError_eq_ok_iff.mp hk,
                  ⟨dataText, textField_eq_ok_iff.mp hdataText, mapError_eq_ok_iff.mp hdata⟩,
                  ⟨keyText, textField_eq_ok_iff.mp hkeyText, mapError_eq_ok_iff.mp hdataKey⟩,
                  ⟨signatureText, textField_eq_ok_iff.mp hsignatureText, hsignature⟩⟩
              · cases h
            · cases h
      · cases h
  · rintro ⟨hobject, htype, ⟨n, hrevision, hn⟩, hk, ⟨dataText, hdataText, hdata⟩,
      ⟨keyText, hkeyText, hdataKey⟩, signatureText, hsignatureText, hsignature⟩
    unfold ofValue
    rw [hobject, htype, hrevision]
    show ((keyOfValue v).mapError _ >>= _) = _
    refine bind_eq_ok_iff.mpr ⟨_, mapError_eq_ok_iff.mpr hk, ?_⟩
    refine bind_eq_ok_iff.mpr ⟨_, textField_eq_ok_iff.mpr hdataText, ?_⟩
    refine bind_eq_ok_iff.mpr ⟨_, mapError_eq_ok_iff.mpr hdata, ?_⟩
    refine bind_eq_ok_iff.mpr ⟨_, textField_eq_ok_iff.mpr hkeyText, ?_⟩
    refine bind_eq_ok_iff.mpr ⟨_, mapError_eq_ok_iff.mpr hdataKey, ?_⟩
    refine bind_eq_ok_iff.mpr ⟨_, textField_eq_ok_iff.mpr hsignatureText, ?_⟩
    rw [hsignature, hn]
    rfl

/-! ## Hops and their values -/

/-- A hop whose key is a point of the curve and whose signature has 64 bytes. -/
structure WellFormed (p : Proof) : Prop where
  key : PublicKey.parse p.publicKey.bytes.toByteArray = .ok p.publicKey
  signature : p.entry.signature.bytes.size = 64

/-- Only well-formed hops are read. -/
theorem ReadFrom.wellFormed (h : p.ReadFrom v) : p.WellFormed := by
  obtain ⟨key, text, -, -, -, hkey⟩ := keyOfValue_eq_ok_iff.mp h.key
  obtain ⟨signatureText, -, hsignature⟩ := h.signature
  exact ⟨PublicKey.parse_eq_ok_iff.mpr ⟨rfl, (keyOfText?_eq_some_iff.mp hkey).2⟩,
    (signatureOfHex?_eq_some_iff.mp hsignature).2⟩

/-- Hops that were signed are well-formed, if the owner has a key. -/
theorem wellFormed_of_sign {keypair : Keypair} {dataKey : ByteVector 32} {data : ByteArray}
    {revision : UInt64} {entry : Entry}
    (hkey : PublicKey.parse keypair.publicKey.bytes.toByteArray = .ok keypair.publicKey)
    (hsign : Entry.sign keypair dataKey data revision = .ok entry) :
    WellFormed ⟨entry, dataKey, keypair.publicKey⟩ :=
  ⟨hkey, Entry.size_signature_of_sign hsign⟩

/-- **A hop is read back from its value exactly if it is well-formed.** -/
theorem readFrom_toValue_iff : p.ReadFrom p.toValue ↔ p.WellFormed := by
  refine ⟨ReadFrom.wellFormed, fun h => ?_⟩
  constructor
  case object => rfl
  case type => rfl
  case revision => exact ⟨_, rfl, by rw [Nat.toUInt64_eq, UInt64.ofNat_toNat]⟩
  case key =>
    exact keyOfValue_eq_ok_iff.mpr ⟨_, _, rfl, rfl, rfl,
      keyOfText?_eq_some_iff.mpr ⟨Base64.decode_encode _, (PublicKey.parse_eq_ok_iff.mp h.key).2⟩⟩
  case data => exact ⟨_, rfl, Hex.decode_encode _⟩
  case dataKey => exact ⟨_, rfl, Hex.decodeVector_toHex _⟩
  case signature =>
    exact ⟨_, rfl, signatureOfHex?_eq_some_iff.mpr ⟨Hex.decode_encode _, h.signature⟩⟩

/-- The value of a hop is read back from its text, if two more containers may be open. -/
theorem readable_toValue (p : Proof) {depth : Nat} (h : depth + 1 < Value.Reader.maxDepth) :
    p.toValue.Readable depth := by
  have hkeys :
      ["data", "datakey", "publickey", "revision", "signature", "type"].Pairwise (· < ·) := by
    decide
  have hkeyKeys : ["algorithm", "key"].Pairwise (· < ·) := by decide
  have htype : plainType < UInt64.size := by decide
  exact ⟨Nat.lt_of_succ_lt h, hkeys, trivial, trivial, ⟨h, hkeyKeys, trivial, trivial, trivial⟩,
    p.entry.revision.toNat_lt, trivial, htype, trivial⟩

/-! ## Headers -/

theorem ofValues_eq_ok_iff : ofValues hop vs = .ok ps ↔ List.Forall₂ ReadFrom ps vs := by
  induction vs generalizing hop ps with
  | nil =>
    rw [List.forall₂_nil_right_iff, ofValues, Except.ok.injEq]
    exact eq_comm
  | cons v vs ih =>
    rw [ofValues, List.forall₂_cons_right_iff]
    constructor
    · intro h
      obtain ⟨p, hp, h⟩ := bind_eq_ok_iff.mp h
      obtain ⟨rest, hrest, h⟩ := bind_eq_ok_iff.mp h
      cases h
      exact ⟨p, rest, ofValue_eq_ok_iff.mp hp, ih.mp hrest, rfl⟩
    · rintro ⟨p, rest, hp, hrest, rfl⟩
      refine bind_eq_ok_iff.mpr ⟨p, ofValue_eq_ok_iff.mpr hp, ?_⟩
      exact bind_eq_ok_iff.mpr ⟨rest, ih.mpr hrest, rfl⟩

/-- **Hops are read from a header exactly if it is an array of them**, and there is one. -/
theorem parseAll_eq_ok_iff : parseAll text = .ok ps ↔
    ps ≠ [] ∧ ∃ items, Value.parse? text = some (.array items) ∧ List.Forall₂ ReadFrom ps items := by
  unfold parseAll
  split
  · rename_i hparse
    rw [hparse]
    exact ⟨nofun, fun h => by obtain ⟨-, _, ⟨⟩, -⟩ := h⟩
  · rename_i hparse
    rw [hparse]
    refine ⟨nofun, ?_⟩
    rintro ⟨hne, _, ⟨⟩, hread⟩
    exact absurd (List.forall₂_nil_right_iff.mp hread) hne
  · rename_i items hitems hparse
    rw [hparse, ofValues_eq_ok_iff]
    constructor
    · intro hread
      refine ⟨?_, items, rfl, hread⟩
      rintro rfl
      exact hitems (List.forall₂_nil_left_iff.mp hread)
    · rintro ⟨-, _, ⟨⟩, hread⟩
      exact hread
  · rename_i v _ hv hparse
    rw [hparse]
    refine ⟨nofun, ?_⟩
    rintro ⟨-, items, hitems, -⟩
    exact absurd (Option.some.inj hitems) (hv items)

/-- A header is read back as the values of its hops. -/
theorem parse?_encodeAll (ps : List Proof) :
    Value.parse? (encodeAll ps) = some (.array (ps.map toValue)) := by
  have hitems : ∀ ps : List Proof, Value.ReadableItems 1 (ps.map toValue) := by
    intro ps
    induction ps with
    | nil => trivial
    | cons p ps ih => exact ⟨p.readable_toValue (by decide), ih⟩
  exact Value.parse?_compact ⟨by decide, hitems ps⟩

/-- **Hops are read back from their header exactly if there are some and all are well-formed.** -/
theorem parseAll_encodeAll_iff :
    parseAll (encodeAll ps) = .ok ps ↔ ps ≠ [] ∧ ∀ p ∈ ps, p.WellFormed := by
  have hvalues : List.Forall₂ ReadFrom ps (ps.map toValue) ↔ ∀ p ∈ ps, p.WellFormed := by
    rw [List.forall₂_map_right_iff, List.forall₂_same]
    exact forall₂_congr fun p _ => readFrom_toValue_iff
  rw [parseAll_eq_ok_iff, parse?_encodeAll, ← hvalues]
  refine and_congr_right fun _ => ⟨?_, fun hread => ⟨_, rfl, hread⟩⟩
  rintro ⟨_, ⟨⟩, hread⟩
  exact hread

/-- Hops that are read from a header can be written into one. -/
theorem wellFormed_of_parseAll (h : parseAll text = .ok ps) :
    ps ≠ [] ∧ ∀ p ∈ ps, p.WellFormed := by
  obtain ⟨hne, items, -, hread⟩ := parseAll_eq_ok_iff.mp h
  have hall : List.Forall₂ (fun p v => p.WellFormed ∧ p.ReadFrom v) ps items :=
    hread.imp fun p v hp => ⟨hp.wellFormed, hp⟩
  exact ⟨hne, ((List.forall₂_and_left ps items).mp hall).1⟩

/-- **A header loses nothing.** Hops are read back from their header exactly if there are some, each
with a key that is one and a signature of 64 bytes, whatever else is in them. All hops that are read
from any header are like that, so that they can be written and are read back again. -/
theorem parseAll_encodeAll (ps : List Proof) :
    (parseAll (encodeAll ps) = .ok ps ↔ ps ≠ [] ∧ ∀ p ∈ ps, p.WellFormed) ∧
      ∀ text, parseAll text = .ok ps → parseAll (encodeAll ps) = .ok ps :=
  ⟨parseAll_encodeAll_iff, fun _ h => parseAll_encodeAll_iff.mpr (wellFormed_of_parseAll h)⟩

/-- Two signed hops, one without data and one of the greatest revision. -/
theorem parseAll_encodeAll_two_hops :
    ∃ p q : Proof, p.entry.data = .empty ∧ q.entry.revision.toNat + 1 = UInt64.size ∧
      p.WellFormed ∧ q.WellFormed ∧ parseAll (encodeAll [p, q]) = .ok [p, q] := by
  have hsign : Entry.sign .zero (.zero 32) .empty 0 = .ok _ :=
    Entry.sign_of_fits (by decide) _ _ _
  have hsign' : Entry.sign .zero (Bytes.ofNat 32 1) ⟨#[0, 255]⟩ 18446744073709551615 = .ok _ :=
    Entry.sign_of_fits (by decide) _ _ _
  have hp := wellFormed_of_sign Keypair.parse_publicKey_zero hsign
  have hq := wellFormed_of_sign Keypair.parse_publicKey_zero hsign'
  refine ⟨_, _, rfl, rfl, hp, hq, (parseAll_encodeAll _).1.mpr ⟨List.cons_ne_nil _ _, ?_⟩⟩
  exact List.forall_mem_cons.mpr ⟨hp, List.forall_mem_singleton.mpr hq⟩

end Trustless.Resolution.Proof
