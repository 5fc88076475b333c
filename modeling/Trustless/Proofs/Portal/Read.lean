import Trustless.Proofs.Key
import Trustless.Proofs.Portal.Fetch
import Trustless.Proofs.Registry.Exchange

/-!
# Reading an entry that some portal has

An answer ends a read if it holds an entry with the owner's signature. A portal that does not have
the entry can therefore not keep one that has it from being heard, with one exception: whoever
answers with an object that says it is of the type with the owner's key ends the read, and nothing
signs that.

* `acceptEntry_eq_ok_iff`: what is accepted as an answer to a read.
* `holdsSigned_of_sign`: an answer with what the owner signed.
* `Client.readEntry_of_signed`: what a read comes to if some portal has a signed entry.
* `Client.unsigned_type_ends_read`: a read that ends before the portal that has it.
-/

namespace Trustless.Portal

open Json (Value)
open Registry (Entry HasKeyType typeWithKey)

variable {owner : PublicKey} {dataKey : ByteVector 32} {r response : Response} {entry : Entry}
  {output : Except RegistryError Entry}

/-- The body of an answer is an entry with the owner's signature. -/
def HoldsSigned (owner : PublicKey) (dataKey : ByteVector 32) (body : ByteArray) (entry : Entry) :
    Prop :=
  Entry.ofResponse body = .ok entry ∧ entry.verify owner dataKey = true

/-- The body of an answer is an object that says it is of the type with the owner's key. -/
def HoldsKeyType (body : ByteArray) : Prop :=
  ∃ v, Value.ofBytes? body = some v ∧ HasKeyType v

/-- **What is accepted as an answer to a read**: an entry with the owner's signature, and any object
of the type with the owner's key. -/
theorem acceptEntry_eq_ok_iff : acceptEntry owner dataKey r = .ok output ↔
    (∃ entry, HoldsSigned owner dataKey r.body entry ∧ output = .ok entry) ∨
      (HoldsKeyType r.body ∧ output = .error (.unsupportedEntryType typeWithKey)) := by
  constructor
  · intro h
    unfold acceptEntry at h
    split at h
    · rename_i entry hread
      split at h
      · cases h
        exact .inl ⟨entry, ⟨hread, ‹_›⟩, rfl⟩
      · cases h
    · rename_i type hread
      cases h
      obtain ⟨v, hv, hkey, rfl⟩ := Entry.ofResponse_eq_unsupported_iff.mp hread
      exact .inr ⟨⟨v, hv, hkey⟩, rfl⟩
    · cases h
  · rintro (⟨entry, ⟨hread, hsigned⟩, rfl⟩ | ⟨⟨v, hv, hkey⟩, rfl⟩)
    · simp only [acceptEntry, hread, hsigned, if_true]
    · simp only [acceptEntry, Entry.ofResponse_eq_unsupported_iff.mpr ⟨v, hv, hkey, rfl⟩]

/-- A portal that sends what the owner signed holds a signed entry. -/
theorem holdsSigned_of_sign {keypair : Keypair} {data : ByteArray} {revision : UInt64}
    (hsign : Entry.sign keypair dataKey data revision = .ok entry)
    (hvouches : keypair.Vouches (Entry.hash dataKey data revision).toByteArray) :
    HoldsSigned keypair.publicKey dataKey entry.readBody entry := by
  refine ⟨Entry.ofResponse_readBody (Entry.size_signature_of_sign hsign), ?_⟩
  obtain ⟨-, rfl⟩ := Entry.sign_eq_ok_iff.mp hsign
  exact hvouches.verifies

/-- An entry that the keypair of the seed of zeros signed, and the answer with it. -/
theorem exists_holdsSigned : ∃ (owner : PublicKey) (entry : Entry) (body : ByteArray),
    owner = Keypair.zero.publicKey ∧
    Entry.sign .zero (.zero 32) (Bytes.ofString "hi") 7 = .ok entry ∧ entry.readBody = body ∧
    HoldsSigned owner (.zero 32) body entry := by
  have hsign : Entry.sign .zero (.zero 32) (Bytes.ofString "hi") 7 = .ok _ :=
    Entry.sign_of_fits (by decide) _ _ _
  exact ⟨_, _, _, rfl, hsign, rfl,
    holdsSigned_of_sign hsign (Keypair.vouches_zero_iff.mpr (by decide +kernel))⟩

/-- An object with nothing but the type. -/
def bareKeyType : ByteArray :=
  Bytes.ofString "\x7b\"type\":2\x7d"

theorem holdsKeyType_bareKeyType : HoldsKeyType bareKeyType := by
  refine ⟨.object [("type", .nat typeWithKey)], ?_, rfl, rfl⟩
  unfold Value.ofBytes? bareKeyType
  rw [Value.fromUTF8?_ofString]
  rfl

namespace Client

variable {σ : Type} {c : Client σ} {s : σ} {i j : Nat} {portal : String}

/-- The first answer that is accepted ends a read. -/
theorem readEntry_of_accepted {v : Visit}
    (hfirst : FirstAt (acceptEntry owner dataKey)
      (c.transport.visits (readRequest owner dataKey) c.config.portals s) j v response output) :
    (c.readEntry owner dataKey).run s = ((output.map some).mapError .registry,
      c.transport.after (readRequest owner dataKey) (c.config.portals.take (j + 1)) s) := by
  have hask := ask_of_firstAt hfirst
  unfold readEntry
  unfold ExceptT.run at hask ⊢
  dsimp only
  rw [hask]
  cases output <;> rfl

/-- A read makes of the first answer that is accepted what the check made of it. -/
theorem readEntry_of_firstAt {v : Visit}
    (hfirst : FirstAt (acceptEntry owner dataKey)
      (c.transport.visits (readRequest owner dataKey) c.config.portals s) j v response output) :
    ((c.readEntry owner dataKey).run s).1 = (output.map some).mapError .registry :=
  congrArg Prod.fst (readEntry_of_accepted hfirst)

/-- **An entry that some portal has is read, or an object of the type with the owner's key comes
first.** Say the portal at place `i` answers with an entry that has the owner's signature. Whatever
the others answer and however many reports of a missing entry are needed, the read returns an entry
with the owner's signature, unless a portal before place `i` answers with an object that says it is
of that type; the read then fails for this type. -/
theorem readEntry_of_signed
    (hanswer : (c.transport.visits (readRequest owner dataKey) c.config.portals s)[i]?
      = some ⟨portal, .ok response⟩)
    (hsuccess : response.isSuccess = true)
    (hsigned : HoldsSigned owner dataKey response.body entry) :
    (∃ e, ((c.readEntry owner dataKey).run s).1 = .ok (some e) ∧
      e.verify owner dataKey = true) ∨
    ∃ j < i, ∃ other answer,
      (c.transport.visits (readRequest owner dataKey) c.config.portals s)[j]?
        = some ⟨other, .ok answer⟩ ∧
      answer.isSuccess = true ∧ HoldsKeyType answer.body ∧
      ((c.readEntry owner dataKey).run s).1
        = .error (.registry (.unsupportedEntryType typeWithKey)) := by
  have hpasses : Visit.Passes ⟨portal, .ok response⟩ (acceptEntry owner dataKey) response
      (.ok entry) :=
    Visit.passes_iff.mpr ⟨rfl, hsuccess, acceptEntry_eq_ok_iff.mpr (.inl ⟨entry, hsigned, rfl⟩)⟩
  obtain ⟨j, hle, v, answer, output, hfirst⟩ := exists_firstAt hanswer hpasses
  have hresult := readEntry_of_firstAt hfirst
  obtain ⟨hv, hsuccess', haccepted⟩ := Visit.passes_iff.mp hfirst.passes
  rcases acceptEntry_eq_ok_iff.mp haccepted with ⟨e, he, rfl⟩ | ⟨htype, rfl⟩
  · exact .inl ⟨e, hresult, he.2⟩
  · -- The portal at place `i` itself holds a signed entry, so that this one stands before it.
    have hlt : j < i := by
      refine lt_of_le_of_ne hle ?_
      rintro rfl
      cases hfirst.here.symm.trans hanswer
      cases hfirst.passes.symm.trans hpasses
    exact .inr ⟨j, hlt, v.portal, answer, hv ▸ hfirst.here, hsuccess', htype, hresult⟩

/-- The first of two portals is down, and the second one has the entry. -/
theorem readEntry_of_signed_second :
    ∃ (c : Client Unit) (owner : PublicKey) (entry : Entry) (body : ByteArray),
      c.config.portals = ["down", "honest"] ∧ owner = Keypair.zero.publicKey ∧
      Entry.sign .zero (.zero 32) (Bytes.ofString "hi") 7 = .ok entry ∧ entry.readBody = body ∧
      (c.transport.visits (readRequest owner (.zero 32)) c.config.portals ())[1]?
        = some ⟨"honest", .ok ⟨200, [], body⟩⟩ ∧
      HoldsSigned owner (.zero 32) body entry ∧
      ((∃ e, ((c.readEntry owner (.zero 32)).run ()).1 = .ok (some e) ∧
        e.verify owner (.zero 32) = true) ∨
      ∃ j < 1, ∃ other answer,
        (c.transport.visits (readRequest owner (.zero 32)) c.config.portals ())[j]?
          = some ⟨other, .ok answer⟩ ∧
        answer.isSuccess = true ∧ HoldsKeyType answer.body ∧
        ((c.readEntry owner (.zero 32)).run ()).1
          = .error (.registry (.unsupportedEntryType typeWithKey))) := by
  obtain ⟨owner, entry, body, howner, hsign, hbody, hsigned⟩ := exists_holdsSigned
  let c : Client Unit := ⟨.steady fun portal =>
    if portal = "honest" then .ok ⟨200, [], body⟩ else .error .timeout,
    { portals := ["down", "honest"] }⟩
  have hanswer : (c.transport.visits (readRequest owner (.zero 32)) c.config.portals ())[1]?
      = some ⟨"honest", .ok ⟨200, [], body⟩⟩ := by
    rw [Transport.visits_steady]
    rfl
  exact ⟨c, owner, entry, body, rfl, howner, hsign, hbody, hanswer, hsigned,
    readEntry_of_signed hanswer rfl hsigned⟩

/-- A portal without the entry ends the read before the portal that has it. -/
theorem unsigned_type_ends_read :
    ∃ (c : Client Unit) (owner : PublicKey) (entry : Entry) (body : ByteArray),
      c.config.portals = ["liar", "honest"] ∧ owner = Keypair.zero.publicKey ∧
      Entry.sign .zero (.zero 32) (Bytes.ofString "hi") 7 = .ok entry ∧ entry.readBody = body ∧
      c.transport.visits (readRequest owner (.zero 32)) c.config.portals ()
        = [⟨"liar", .ok ⟨200, [], bareKeyType⟩⟩, ⟨"honest", .ok ⟨200, [], body⟩⟩] ∧
      HoldsSigned owner (.zero 32) body entry ∧
      ¬ ∃ e, ((c.readEntry owner (.zero 32)).run ()).1 = .ok (some e) := by
  obtain ⟨owner, entry, body, howner, hsign, hbody, hsigned⟩ := exists_holdsSigned
  let c : Client Unit := ⟨.steady fun portal =>
    .ok ⟨200, [], if portal = "honest" then body else bareKeyType⟩,
    { portals := ["liar", "honest"] }⟩
  have hvisits : c.transport.visits (readRequest owner (.zero 32)) c.config.portals ()
      = [⟨"liar", .ok ⟨200, [], bareKeyType⟩⟩, ⟨"honest", .ok ⟨200, [], body⟩⟩] := by
    rw [Transport.visits_steady]
    rfl
  have hliar : Visit.Passes ⟨"liar", .ok ⟨200, [], bareKeyType⟩⟩
      (acceptEntry owner (.zero 32)) ⟨200, [], bareKeyType⟩
      (.error (.unsupportedEntryType typeWithKey)) :=
    Visit.passes_iff.mpr
      ⟨rfl, rfl, acceptEntry_eq_ok_iff.mpr (.inr ⟨holdsKeyType_bareKeyType, rfl⟩)⟩
  have hresult := readEntry_of_firstAt (hvisits ▸ FirstAt.zero hliar _)
  refine ⟨c, owner, entry, body, rfl, howner, hsign, hbody, hvisits, hsigned, ?_⟩
  rintro ⟨e, he⟩
  cases hresult.symm.trans he

end Client

end Trustless.Portal
