import Trustless.Proofs.Encoding.Hex
import Trustless.Proofs.Failure
import Trustless.Proofs.Json.Value
import Trustless.Registry.Exchange

/-!
# What portals and clients tell each other about an entry

* `HasKeyType`: an object that says it is of the type with the owner's key. Nothing signs this.
* `ofResponse_eq_unsupported_iff`: the type is refused exactly for such an object, whatever else is
  in it.
* `failsWith_ofResponse`: what else an answer is refused for.
* `ReadFrom`, `ofValue_eq_ok_iff`: what it takes that an entry is read from a value.
* `CarriedBy`, `ServedAs`: the objects with an entry, whatever else they hold, and their texts.
* `ofResponse_of_servedAs`: an entry is read back from any of them; `ofResponse_readBody` from the one
  without other fields.
* `ofBytes?_writeRequest`: the request to write an entry is read back field by field.
* `sign_eq_ok_iff`: what is signed.
-/

namespace Trustless.Registry

open Json (Value)

/-- An object that says it is an entry of the type with the owner's key. -/
def HasKeyType (v : Value) : Prop :=
  v.isObject = true ∧ (v.field? "type" >>= Value.asNat?) = some typeWithKey

/-! ## The type that is not supported -/

namespace Entry

variable {v : Value} {body : ByteArray} {type : Nat}

theorem checkType_eq_unsupported_iff {t : Option Value} :
    checkType t = .error (.unsupportedEntryType type) ↔
      (t >>= Value.asNat?) = some typeWithKey ∧ type = typeWithKey := by
  cases t with
  | none => exact ⟨nofun, nofun⟩
  | some v =>
    show (if v.asNat? = some plainType then Except.ok () else _) = _ ↔ v.asNat? = _ ∧ _
    by_cases hplain : v.asNat? = some plainType
    · rw [if_pos hplain, hplain]
      exact ⟨nofun, nofun⟩
    · rw [if_neg hplain]
      by_cases hkey : v.asNat? = some typeWithKey
      · rw [if_pos hkey, hkey]
        exact ⟨fun h => ⟨rfl, by cases h; rfl⟩, fun h => by rw [h.2]⟩
      · rw [if_neg hkey]
        exact ⟨nofun, fun h => absurd h.1 hkey⟩

/-- A field that is missing or no text makes an answer malformed. -/
theorem failsWith_textField (v : Value) (field : String) :
    FailsWith (fun e => ∃ fault, e = .malformedResponse fault) (textField v field) := by
  unfold textField
  split
  · exact .error ⟨_, rfl⟩
  · split
    · exact .error ⟨_, rfl⟩
    · exact .ok _

/-- A type that is not plain is refused, or makes an answer malformed. -/
theorem failsWith_checkType (t : Option Value) : FailsWith
    (fun e => (∃ type, e = .unsupportedEntryType type) ∨ ∃ fault, e = .malformedResponse fault)
    (checkType t) := by
  unfold checkType
  split
  · exact .ok _
  · split
    · exact .ok _
    · split
      · exact .error (.inl ⟨_, rfl⟩)
      · exact .error (.inr ⟨_, rfl⟩)

/-- An object is refused for its type before anything else in it. -/
theorem ofValue_of_checkType_error {e : RegistryError} (hobj : v.isObject = true)
    (hcheck : checkType (v.field? "type") = .error e) : ofValue v = .error e := by
  unfold ofValue
  rw [hobj, hcheck]
  rfl

/-- Behind the type, an object is refused only for being malformed. -/
theorem failsWith_ofValue (hobj : v.isObject = true) (hcheck : checkType (v.field? "type") = .ok ()) :
    FailsWith (fun e => ∃ fault, e = .malformedResponse fault) (ofValue v) := by
  unfold ofValue
  rw [hobj, hcheck]
  refine .bind (.ok ()) fun _ => ?_
  refine .bind (failsWith_textField v "data") fun text => ?_
  refine .bind (.mapError (fun _ => ⟨_, rfl⟩) _) fun data => ?_
  split
  · refine .bind (failsWith_textField v "signature") fun text => ?_
    split
    · exact .ok _
    · exact .error ⟨_, rfl⟩
  · exact .error ⟨_, rfl⟩

/-- **The type is refused exactly for an object that says so**, whatever else is in it. -/
theorem ofValue_eq_unsupported_iff :
    ofValue v = .error (.unsupportedEntryType type) ↔ HasKeyType v ∧ type = typeWithKey := by
  unfold HasKeyType
  cases hobj : v.isObject with
  | false =>
    unfold ofValue
    rw [hobj]
    exact ⟨nofun, nofun⟩
  | true =>
    cases hcheck : checkType (v.field? "type") with
    | error e =>
      have hvalue := ofValue_of_checkType_error hobj hcheck
      have htype : checkType (v.field? "type") = .error (.unsupportedEntryType type) ↔ _ :=
        checkType_eq_unsupported_iff
      rw [hcheck, Except.error.injEq] at htype
      rw [hvalue, Except.error.injEq, htype]
      exact ⟨fun h => ⟨⟨rfl, h.1⟩, h.2⟩, fun h => ⟨h.1.2, h.2⟩⟩
    | ok u =>
      constructor
      · intro h
        obtain ⟨fault, he⟩ := failsWith_ofValue hobj hcheck _ h
        cases he
      · rintro ⟨⟨-, htype⟩, rfl⟩
        rw [checkType_eq_unsupported_iff.mpr ⟨htype, rfl⟩] at hcheck
        cases hcheck

theorem ofResponse_eq_unsupported_iff : ofResponse body = .error (.unsupportedEntryType type) ↔
    ∃ v, Value.ofBytes? body = some v ∧ HasKeyType v ∧ type = typeWithKey := by
  unfold ofResponse
  cases Value.ofBytes? body with
  | none => exact ⟨nofun, nofun⟩
  | some v =>
    rw [ofValue_eq_unsupported_iff]
    exact ⟨fun h => ⟨v, rfl, h⟩, by rintro ⟨_, ⟨⟩, h⟩; exact h⟩

/-- An answer that is no entry is refused for its type or for being malformed. -/
theorem failsWith_ofResponse (body : ByteArray) : FailsWith
    (fun e => (∃ type, e = .unsupportedEntryType type) ∨ ∃ fault, e = .malformedResponse fault)
    (ofResponse body) := by
  unfold ofResponse
  cases Value.ofBytes? body with
  | none => exact .error (.inr ⟨_, rfl⟩)
  | some v =>
    show FailsWith _ (ofValue v)
    cases hobj : v.isObject with
    | false =>
      unfold ofValue
      rw [hobj]
      exact .error (.inr ⟨_, rfl⟩)
    | true =>
      cases hcheck : checkType (v.field? "type") with
      | error e =>
        rw [ofValue_of_checkType_error hobj hcheck]
        exact .error (failsWith_checkType _ e hcheck)
      | ok u => exact (failsWith_ofValue hobj hcheck).mono fun e he => .inr he

/-! ## What it takes that an entry is read -/

variable {e : Entry} {field text : String} {fields : List (String × Value)}

theorem checkType_eq_ok_iff {t : Option Value} :
    checkType t = .ok () ↔ t = none ∨ (t >>= Value.asNat?) = some plainType := by
  cases t with
  | none => exact ⟨fun _ => .inl rfl, fun _ => rfl⟩
  | some v =>
    show (if v.asNat? = some plainType then Except.ok () else _) = _ ↔ _ ∨ v.asNat? = _
    by_cases hplain : v.asNat? = some plainType
    · rw [if_pos hplain]
      exact ⟨fun _ => .inr hplain, fun _ => rfl⟩
    · rw [if_neg hplain]
      refine ⟨fun h => ?_, fun h => absurd h (by simp [hplain])⟩
      split at h
      · cases h
      · cases h

theorem textField_eq_ok_iff :
    textField v field = .ok text ↔ (v.field? field >>= Value.asString?) = some text := by
  unfold textField
  cases v.field? field with
  | none => exact ⟨nofun, nofun⟩
  | some f =>
    show _ ↔ f.asString? = some text
    cases hf : f.asString? with
    | none => simp [hf]
    | some s => simp [hf]

/-- What it takes that an entry is read from a value. -/
structure ReadFrom (e : Entry) (v : Value) : Prop where
  object : v.isObject = true
  type : v.field? "type" = none ∨ (v.field? "type" >>= Value.asNat?) = some plainType
  data : ∃ text, (v.field? "data" >>= Value.asString?) = some text ∧ Hex.decode text = .ok e.data
  revision : ∃ n, (v.field? "revision" >>= Value.asNat?) = some n ∧ n.toUInt64 = e.revision
  signature : ∃ text, (v.field? "signature" >>= Value.asString?) = some text ∧
    signatureOfHex? text = some e.signature

/-- **An entry is read field by field.** -/
theorem ofValue_eq_ok_iff : ofValue v = .ok e ↔ e.ReadFrom v := by
  constructor
  · intro h
    unfold ofValue at h
    dsimp only at h
    split at h
    · cases h
    · rename_i hobject
      obtain ⟨u, htype, h⟩ := bind_eq_ok_iff.mp h
      obtain ⟨dataText, hdataText, h⟩ := bind_eq_ok_iff.mp h
      obtain ⟨data, hdata, h⟩ := bind_eq_ok_iff.mp h
      split at h
      · rename_i n hrevision
        obtain ⟨signatureText, hsignatureText, h⟩ := bind_eq_ok_iff.mp h
        split at h
        · rename_i signature hsignature
          cases h
          exact ⟨by simpa using hobject, checkType_eq_ok_iff.mp htype,
            ⟨dataText, textField_eq_ok_iff.mp hdataText, mapError_eq_ok_iff.mp hdata⟩,
            ⟨n, hrevision, rfl⟩,
            ⟨signatureText, textField_eq_ok_iff.mp hsignatureText, hsignature⟩⟩
        · cases h
      · cases h
  · rintro ⟨hobject, htype, ⟨dataText, hdataText, hdata⟩, ⟨n, hrevision, hn⟩,
      signatureText, hsignatureText, hsignature⟩
    unfold ofValue
    rw [hobject, hrevision]
    show (checkType _ >>= _) = _
    refine bind_eq_ok_iff.mpr ⟨_, checkType_eq_ok_iff.mpr htype, ?_⟩
    refine bind_eq_ok_iff.mpr ⟨_, textField_eq_ok_iff.mpr hdataText, ?_⟩
    refine bind_eq_ok_iff.mpr ⟨_, mapError_eq_ok_iff.mpr hdata, ?_⟩
    refine bind_eq_ok_iff.mpr ⟨_, textField_eq_ok_iff.mpr hsignatureText, ?_⟩
    rw [hsignature, hn]
    rfl

theorem ofResponse_of_value (h : Value.ofBytes? body = some v) : ofResponse body = ofValue v := by
  rw [ofResponse, h]

/-! ## Entries that are read back -/

/-- What a portal sends for an entry. -/
def readValue (e : Entry) : Value :=
  .object [
    ("data", .string (Hex.encode e.data)),
    ("revision", .nat e.revision.toNat),
    ("signature", .string e.signature.toHex)]

/-- The body of a portal's answer with an entry. -/
def readBody (e : Entry) : ByteArray :=
  Bytes.ofString e.readValue.compact

/-- Only signatures of 64 bytes are read from hex. -/
theorem signatureOfHex?_eq_some_iff {text : String} {s : Signature} :
    signatureOfHex? text = some s ↔ Hex.decode text = .ok s.bytes ∧ s.bytes.size = 64 := by
  have hparse (b : ByteArray) : Signature.parse b = .ok s ↔ b = s.bytes ∧ s.bytes.size = 64 := by
    unfold Signature.parse
    by_cases hsize : b.size = 64
    · rw [if_pos hsize]
      exact ⟨fun h => by cases h; exact ⟨rfl, hsize⟩, fun h => by rw [h.1]⟩
    · rw [if_neg hsize]
      exact ⟨nofun, fun h => absurd h.2 (h.1 ▸ hsize)⟩
  unfold signatureOfHex?
  rw [Option.bind_eq_bind, Option.bind_eq_some_iff]
  simp only [toOption_eq_some_iff, hparse]
  exact ⟨fun ⟨b, hb, hbytes, hsize⟩ => ⟨hbytes ▸ hb, hsize⟩, fun h => ⟨_, h.1, rfl, h.2⟩⟩

/-- The fields of an object that carries an entry: data and signature in hex, the revision as a
number, and no type but the plain one. All other fields are free, and so is the order. -/
structure CarriedBy (e : Entry) (fields : List (String × Value)) : Prop where
  distinct : (fields.map Prod.fst).Nodup
  data : ∃ text, ("data", .string text) ∈ fields ∧ Hex.Spells text e.data
  revision : ("revision", .nat e.revision.toNat) ∈ fields
  signature : ∃ text, ("signature", .string text) ∈ fields ∧ Hex.Spells text e.signature.bytes
  type : ∀ t, ("type", t) ∈ fields → t = .nat plainType

/-- The body of an answer is the JSON of an object that carries an entry. -/
def ServedAs (e : Entry) (body : ByteArray) : Prop :=
  ∃ fields, e.CarriedBy fields ∧ Value.ofBytes? body = some (.ofFields fields)

/-- An entry with a signature of the right length is read from any object that carries it. -/
theorem CarriedBy.readFrom (h : e.CarriedBy fields) (hsize : e.signature.bytes.size = 64) :
    e.ReadFrom (.ofFields fields) := by
  have hfield {name : String} {f : Value} (hmem : (name, f) ∈ fields) :
      (Value.ofFields fields).field? name = some f := by
    rw [Value.field?_ofFields h.distinct, Value.field?_of_mem h.distinct hmem]
  obtain ⟨dataText, hdataMem, hdata⟩ := h.data
  obtain ⟨signatureText, hsignatureMem, hsignature⟩ := h.signature
  constructor
  case object => rfl
  case type =>
    cases htype : (Value.ofFields fields).field? "type" with
    | none => exact .inl rfl
    | some t =>
      rw [Value.field?_ofFields h.distinct] at htype
      rw [h.type t (Value.mem_of_field? htype)]
      exact .inr rfl
  case data =>
    rw [hfield hdataMem]
    exact ⟨dataText, rfl, Hex.decode_eq_ok_iff.mpr hdata⟩
  case revision =>
    rw [hfield h.revision]
    exact ⟨e.revision.toNat, rfl, by rw [Nat.toUInt64_eq, UInt64.ofNat_toNat]⟩
  case signature =>
    rw [hfield hsignatureMem]
    exact ⟨signatureText, rfl,
      signatureOfHex?_eq_some_iff.mpr ⟨Hex.decode_eq_ok_iff.mpr hsignature, hsize⟩⟩

/-- **An answer with an entry is read as that entry**, whatever else it holds. -/
theorem ofResponse_of_servedAs (h : e.ServedAs body) (hsize : e.signature.bytes.size = 64) :
    ofResponse body = .ok e := by
  obtain ⟨fields, hcarried, hread⟩ := h
  rw [ofResponse_of_value hread]
  exact ofValue_eq_ok_iff.mpr (hcarried.readFrom hsize)

theorem servedAs_compact (h : e.CarriedBy fields) (hreadable : Value.ReadableFields 1 fields) :
    e.ServedAs (Bytes.ofString (Value.object fields).compact) :=
  ⟨fields, h, Value.ofBytes?_compact_object hreadable⟩

/-- What a portal sends for an entry is such a body. -/
theorem servedAs_readBody (e : Entry) : e.ServedAs e.readBody := by
  have hkeys : ["data", "revision", "signature"].Nodup := by decide
  refine servedAs_compact ⟨hkeys, ?_, ?_, ?_, ?_⟩ ⟨trivial, e.revision.toNat_lt, trivial, trivial⟩
  · exact ⟨Hex.encode e.data, List.mem_cons_self, Hex.spells_encode e.data⟩
  · exact List.mem_cons_of_mem _ List.mem_cons_self
  · exact ⟨e.signature.toHex, List.mem_cons_of_mem _ (List.mem_cons_of_mem _ List.mem_cons_self),
      Hex.spells_encode e.signature.bytes⟩
  · intro t ht
    simp at ht

/-- **An entry is read back** from what a portal sends for it. -/
theorem ofResponse_readBody (h : e.signature.bytes.size = 64) : ofResponse e.readBody = .ok e :=
  ofResponse_of_servedAs e.servedAs_readBody h

/-! ## Entries that are written -/

/-- **The request to write an entry is read back field by field**, although its keys are not in
order. -/
theorem ofBytes?_writeRequest (e : Entry) (owner : PublicKey) (dataKey : ByteVector 32) :
    ∃ v, Value.ofBytes? (Bytes.ofString (e.writeRequest owner dataKey)) = some v ∧
      ∀ name, v.field? name = (e.writeValue owner dataKey).field? name := by
  have hkeys : ["publickey", "datakey", "revision", "data", "signature"].Nodup := by decide
  have hownerKeys : ["algorithm", "key"].Pairwise (· < ·) := by decide
  have howner : Value.Readable 1 (.object [
      ("algorithm", .string algorithm), ("key", .ofBytes owner.bytes.toByteArray)]) :=
    ⟨by decide, hownerKeys, trivial, Value.readable_ofBytes (by decide) _, trivial⟩
  exact ⟨_, Value.ofBytes?_compact_object ⟨howner, trivial, e.revision.toNat_lt,
    Value.readable_ofBytes (by decide) _, Value.readable_ofBytes (by decide) _, trivial⟩,
    Value.field?_ofFields hkeys⟩

/-- The revision that a request to write an entry carries. -/
theorem revision_writeRequest (e : Entry) (owner : PublicKey) (dataKey : ByteVector 32) :
    ∃ v, Value.ofBytes? (Bytes.ofString (e.writeRequest owner dataKey)) = some v ∧
      (v.field? "revision" >>= Value.asNat?) = some e.revision.toNat := by
  obtain ⟨v, hread, hfields⟩ := e.ofBytes?_writeRequest owner dataKey
  refine ⟨v, hread, ?_⟩
  rw [hfields]
  rfl

/-! ## Signing -/

section Sign

variable {keypair : Keypair} {dataKey : ByteVector 32} {data : ByteArray} {revision : UInt64}

/-- Data that fits is signed at its revision. -/
theorem sign_of_fits (h : data.size ≤ maxDataSize) (keypair : Keypair) (dataKey : ByteVector 32)
    (revision : UInt64) : sign keypair dataKey data revision
      = .ok ⟨data, revision, keypair.sign (hash dataKey data revision).toByteArray⟩ :=
  if_neg (Nat.not_lt_of_le h)

theorem sign_of_too_large (h : maxDataSize < data.size) (keypair : Keypair)
    (dataKey : ByteVector 32) (revision : UInt64) :
    sign keypair dataKey data revision = .error (.dataTooLarge data.size) :=
  if_pos h

/-- What is signed, and with what signature. -/
theorem sign_eq_ok_iff : sign keypair dataKey data revision = .ok e ↔ data.size ≤ maxDataSize ∧
    e = ⟨data, revision, keypair.sign (hash dataKey data revision).toByteArray⟩ := by
  constructor
  · intro h
    rcases Nat.lt_or_ge maxDataSize data.size with hlarge | hfits
    · cases h.symm.trans (sign_of_too_large hlarge keypair dataKey revision)
    · cases h.symm.trans (sign_of_fits hfits keypair dataKey revision)
      exact ⟨hfits, rfl⟩
  · rintro ⟨hfits, rfl⟩
    exact sign_of_fits hfits keypair dataKey revision

theorem size_signature_of_sign (h : sign keypair dataKey data revision = .ok e) :
    e.signature.bytes.size = 64 := by
  obtain ⟨-, rfl⟩ := sign_eq_ok_iff.mp h
  exact ByteVector.size_eq _

end Sign

end Entry

end Trustless.Registry
