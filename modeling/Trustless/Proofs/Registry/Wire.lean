import Trustless.Proofs.Registry.Exchange

/-!
# Nothing is lost between clients and portals

A client writes an entry with its bytes as lists of numbers, and a portal sends it with its bytes in
hex. Each form tells the whole entry, whatever its data and its revision are. What a portal adds to
its answer, and in which order it sends the fields, is nothing to the reader.

* `WrittenIn`: what is read off a request to write an entry; `WrittenIn.unique`: it is one entry.
* `writtenIn_writeRequest`: the request for an entry is read as that entry.
* `exchange_lossless`: both forms, and the way of an entry from one client to another.
-/

namespace Trustless.Registry.Entry

open Json (Value)

variable {e e' : Entry} {owner owner' : PublicKey} {dataKey dataKey' : ByteVector 32} {v : Value}

/-! ## Requests to write -/

/-- What is read off the JSON value of a request to write an entry. -/
structure WrittenIn (e : Entry) (owner : PublicKey) (dataKey : ByteVector 32) (v : Value) :
    Prop where
  algorithm : (v.field? "publickey" >>= Value.field? "algorithm" >>= Value.asString?)
    = some "ed25519"
  owner : (v.field? "publickey" >>= Value.field? "key" >>= Value.asBytes?)
    = some owner.bytes.toByteArray
  dataKey : ∃ text, (v.field? "datakey" >>= Value.asString?) = some text ∧
    Hex.decodeVector 32 text = .ok dataKey
  revision : (v.field? "revision" >>= Value.asNat?) = some e.revision.toNat
  data : (v.field? "data" >>= Value.asBytes?) = some e.data
  signature : (v.field? "signature" >>= Value.asBytes?) = some e.signature.bytes

/-- **One entry is read off a request**, under one name. -/
theorem WrittenIn.unique (h : e.WrittenIn owner dataKey v) (h' : e'.WrittenIn owner' dataKey' v) :
    e = e' ∧ owner = owner' ∧ dataKey = dataKey' := by
  have hdata : e.data = e'.data := Option.some.inj (h.data.symm.trans h'.data)
  have hrevision : e.revision = e'.revision :=
    UInt64.toNat_inj.mp (Option.some.inj (h.revision.symm.trans h'.revision))
  have hsignature : e.signature.bytes = e'.signature.bytes :=
    Option.some.inj (h.signature.symm.trans h'.signature)
  have howner : owner.bytes = owner'.bytes :=
    ByteVector.ext (Option.some.inj (h.owner.symm.trans h'.owner))
  obtain ⟨text, htext, hread⟩ := h.dataKey
  obtain ⟨text', htext', hread'⟩ := h'.dataKey
  obtain rfl := Option.some.inj (htext.symm.trans htext')
  refine ⟨?_, congrArg PublicKey.mk howner, Except.ok.inj (hread.symm.trans hread')⟩
  cases e
  cases e'
  simp only [Entry.mk.injEq]
  exact ⟨hdata, hrevision, congrArg Signature.mk hsignature⟩

/-- **The request to write an entry is read as that entry.** -/
theorem writtenIn_writeRequest (e : Entry) (owner : PublicKey) (dataKey : ByteVector 32) :
    ∃ v, Value.ofBytes? (Bytes.ofString (e.writeRequest owner dataKey)) = some v ∧
      e.WrittenIn owner dataKey v := by
  obtain ⟨v, hread, hfields⟩ := e.ofBytes?_writeRequest owner dataKey
  refine ⟨v, hread, ?_⟩
  constructor
  case algorithm =>
    rw [hfields]
    rfl
  case owner =>
    rw [hfields]
    exact Value.asBytes?_ofBytes owner.bytes.toByteArray
  case dataKey =>
    rw [hfields]
    exact ⟨dataKey.toHex, rfl, Hex.decodeVector_toHex dataKey⟩
  case revision =>
    rw [hfields]
    rfl
  case data =>
    rw [hfields]
    exact Value.asBytes?_ofBytes e.data
  case signature =>
    rw [hfields]
    exact Value.asBytes?_ofBytes e.signature.bytes

/-! ## From one client to another -/

/-- **Nothing is lost between clients and portals.** Data that fits is signed under every revision.
The request to write the entry is read as it, under the name that it was signed for, and a portal that
sends what it read off the request is read as having that entry. So is every portal that sends an
entry with a signature of the right length, with whatever other fields. -/
theorem exchange_lossless :
    (∀ keypair dataKey data revision, data.size ≤ 86 → ∃ e v,
      sign keypair dataKey data revision = .ok e ∧ e.data = data ∧ e.revision = revision ∧
      Value.ofBytes? (Bytes.ofString (e.writeRequest keypair.publicKey dataKey)) = some v ∧
      e.WrittenIn keypair.publicKey dataKey v ∧
      ∀ stored owner dataKey', WrittenIn stored owner dataKey' v →
        ∀ body, stored.ServedAs body → ofResponse body = .ok e) ∧
    (∀ e : Entry, e.signature.bytes.size = 64 →
      ∀ body, e.ServedAs body → ofResponse body = .ok e) ∧
    ∀ (e : Entry) fields, e.CarriedBy fields → Value.ReadableFields 1 fields →
      e.ServedAs (Bytes.ofString (Value.object fields).compact) := by
  refine ⟨fun keypair dataKey data revision hfits => ?_,
    fun e hsize body h => ofResponse_of_servedAs h hsize, fun e fields => servedAs_compact⟩
  have hsign := sign_of_fits hfits keypair dataKey revision
  obtain ⟨v, hread, hwritten⟩ := writtenIn_writeRequest _ keypair.publicKey dataKey
  refine ⟨_, v, hsign, rfl, rfl, hread, hwritten, fun stored owner dataKey' hstored body h => ?_⟩
  obtain ⟨rfl, -, -⟩ := hstored.unique hwritten
  exact ofResponse_of_servedAs h (size_signature_of_sign hsign)

/-- An entry under the greatest revision. -/
def greatest : Entry :=
  ⟨Bytes.ofString "Jo", 18446744073709551615, ⟨Bytes.zeros 64⟩⟩

/-- An object that carries it, with a type, a field of its own and hex in capitals. -/
def greatestFields : List (String × Value) :=
  [("type", .nat plainType), ("note", .null), ("signature", .string greatest.signature.toHex),
    ("revision", .nat 18446744073709551615), ("data", .string "4A6F")]

theorem carriedBy_greatestFields : greatest.CarriedBy greatestFields := by
  constructor
  case distinct => decide
  case data => exact ⟨"4A6F", List.mem_of_getElem? (i := 4) rfl, by decide⟩
  case revision => exact List.mem_of_getElem? (i := 3) rfl
  case signature => exact ⟨_, List.mem_of_getElem? (i := 2) rfl, Hex.spells_encode _⟩
  case type =>
    intro t ht
    simpa [greatestFields] using ht

/-- The greatest revision is read back both by the portal and by the client. -/
theorem exchange_lossless_greatest :
    ofResponse (Bytes.ofString (Value.object greatestFields).compact) = .ok greatest ∧
    ∃ e v, sign ⟨.zero 32⟩ (.zero 32) (Bytes.ofString "Jo") 18446744073709551615 = .ok e ∧
      Value.ofBytes? (Bytes.ofString (e.writeRequest (Keypair.publicKey ⟨.zero 32⟩) (.zero 32)))
        = some v ∧
      (v.field? "revision" >>= Value.asNat?) = some 18446744073709551615 ∧
      ofResponse e.readBody = .ok e := by
  obtain ⟨hwritten, hserved, hcompact⟩ := exchange_lossless
  have htype : plainType < 2 ^ 64 := by decide
  have hreadable : Value.ReadableFields 1 greatestFields :=
    ⟨htype, trivial, trivial, greatest.revision.toNat_lt, trivial, trivial⟩
  obtain ⟨e, v, hsign, -, hrevision, hread, hfields, hstored⟩ :=
    hwritten ⟨.zero 32⟩ (.zero 32) (Bytes.ofString "Jo") 18446744073709551615 (by decide)
  refine ⟨?_, e, v, hsign, hread, ?_, hstored e _ _ hfields _ e.servedAs_readBody⟩
  · exact hserved greatest (Bytes.size_zeros 64) _
      (hcompact greatest greatestFields carriedBy_greatestFields hreadable)
  · rw [hfields.revision, hrevision]
    rfl

end Trustless.Registry.Entry
