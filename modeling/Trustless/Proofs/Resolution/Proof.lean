import Trustless.Proofs.Registry.Exchange
import Trustless.Resolution.Proof

/-!
# What a resolver proof is refused for

The hops in a header are read one after the other, before anything about them is checked. Whoever
writes the header decides what is read, and also whether a hop is said to be of the type with the
owner's key.

* `Proof.ofValue_eq_unsupported_iff`: a hop is refused for its type exactly if it says that it is of
  that type.
* `Proof.Unsupported`, `Proof.parseAll_eq_unsupported_iff`: the same for a whole header, in which
  the hops before that one must be readable and the hops after it do not matter.
-/

namespace Trustless.Resolution

open Json (Value)
open Registry (HasKeyType typeWithKey plainType)

namespace Proof

variable {v : Value} {vs : List Value} {text : String} {start hop k type : Nat}

/-! ## One hop -/

/-- A field that is no text makes a hop malformed. -/
theorem failsWith_textField (v : Value) (hop : Nat) (field : String) :
    FailsWith (fun e => ∃ fault, e = .malformedProof hop fault) (textField v hop field) := by
  unfold textField
  split
  · exact .ok _
  · exact .error ⟨_, rfl⟩

/-- A hop that is not of the type with the owner's key is read, or it is malformed. -/
theorem failsWith_ofValue (h : ¬ HasKeyType v) (hop : Nat) :
    FailsWith (fun e => ∃ fault, e = .malformedProof hop fault) (ofValue v hop) := by
  unfold ofValue
  dsimp only
  split
  · exact .error ⟨_, rfl⟩
  · rename_i hobj
    split
    · rename_i t htype
      have hkey : t ≠ typeWithKey := fun ht => h ⟨by simpa using hobj, ht ▸ htype⟩
      rw [if_neg hkey]
      split
      · exact .error ⟨_, rfl⟩
      · split
        · refine .bind (.mapError (fun _ => ⟨_, rfl⟩) _) fun publicKey => ?_
          refine .bind (failsWith_textField v hop "data") fun text => ?_
          refine .bind (.mapError (fun _ => ⟨_, rfl⟩) _) fun data => ?_
          refine .bind (failsWith_textField v hop "datakey") fun text => ?_
          refine .bind (.mapError (fun _ => ⟨_, rfl⟩) _) fun dataKey => ?_
          refine .bind (failsWith_textField v hop "signature") fun text => ?_
          split
          · exact .ok _
          · exact .error ⟨_, rfl⟩
        · exact .error ⟨_, rfl⟩
    · exact .error ⟨_, rfl⟩

theorem ofValue_of_hasKeyType (h : HasKeyType v) (hop : Nat) :
    ofValue v hop = .error (.unsupportedEntryType hop typeWithKey) := by
  unfold ofValue
  rw [h.1, h.2]
  rfl

/-- **A hop is refused for its type exactly if it says that it is of that type**, whatever else is
in it. -/
theorem ofValue_eq_unsupported_iff : ofValue v hop = .error (.unsupportedEntryType k type) ↔
    HasKeyType v ∧ k = hop ∧ type = typeWithKey := by
  constructor
  · intro h
    by_cases hkey : HasKeyType v
    · rw [ofValue_of_hasKeyType hkey] at h
      cases h
      exact ⟨hkey, rfl, rfl⟩
    · obtain ⟨fault, he⟩ := failsWith_ofValue hkey hop _ h
      cases he
  · rintro ⟨hkey, rfl, rfl⟩
    exact ofValue_of_hasKeyType hkey k

/-! ## All hops of a header -/

/-- Reading hops, numbered from a start on, comes to one that says it is of the type with the
owner's key. The hops after it are not read. -/
inductive UnsupportedHop : Nat → List Value → Nat → Prop
  | here {start : Nat} {v : Value} {vs : List Value} :
      HasKeyType v → UnsupportedHop start (v :: vs) start
  | later {start hop : Nat} {v : Value} {vs : List Value} {p : Proof} :
      ofValue v start = .ok p → UnsupportedHop (start + 1) vs hop →
        UnsupportedHop start (v :: vs) hop

/-- The hops of a header come to one of the type with the owner's key. -/
def Unsupported (text : String) (hop : Nat) : Prop :=
  ∃ items, Value.parse? text = some (.array items) ∧ UnsupportedHop 0 items hop

theorem ofValues_of_unsupportedHop (h : UnsupportedHop start vs hop) :
    ofValues start vs = .error (.unsupportedEntryType hop typeWithKey) := by
  induction h with
  | here hkey =>
    rw [ofValues, ofValue_of_hasKeyType hkey]
    rfl
  | @later start hop v vs p hread _ ih =>
    rw [ofValues, hread]
    show (ofValues (start + 1) vs >>= fun ps => .ok (p :: ps)) = _
    rw [ih]
    rfl

theorem unsupportedHop_of_ofValues
    (h : ofValues start vs = .error (.unsupportedEntryType hop type)) :
    UnsupportedHop start vs hop ∧ type = typeWithKey := by
  induction vs generalizing start with
  | nil => cases h
  | cons v vs ih =>
    rw [ofValues] at h
    cases hv : ofValue v start with
    | error e =>
      rw [hv] at h
      cases h
      obtain ⟨hkey, rfl, rfl⟩ := ofValue_eq_unsupported_iff.mp hv
      exact ⟨.here hkey, rfl⟩
    | ok p =>
      rw [hv] at h
      change (ofValues (start + 1) vs >>= fun ps => .ok (p :: ps)) = _ at h
      cases hrest : ofValues (start + 1) vs with
      | error e =>
        rw [hrest] at h
        cases h
        exact (ih hrest).imp_left (.later hv)
      | ok ps =>
        rw [hrest] at h
        cases h

theorem ofValues_eq_unsupported_iff :
    ofValues start vs = .error (.unsupportedEntryType hop type) ↔
      UnsupportedHop start vs hop ∧ type = typeWithKey := by
  refine ⟨unsupportedHop_of_ofValues, ?_⟩
  rintro ⟨h, rfl⟩
  exact ofValues_of_unsupportedHop h

/-- **A header is refused for the type of a hop exactly if its hops come to one that says so**, and
that hop is named. -/
theorem parseAll_eq_unsupported_iff :
    parseAll text = .error (.unsupportedEntryType hop type) ↔
      Unsupported text hop ∧ type = typeWithKey := by
  unfold parseAll Unsupported
  split
  · rename_i hparse
    rw [hparse]
    exact ⟨nofun, nofun⟩
  · rename_i hparse
    rw [hparse]
    refine ⟨nofun, ?_⟩
    rintro ⟨⟨_, ⟨⟩, ⟨⟩⟩, -⟩
  · rename_i items _ hparse
    rw [hparse, ofValues_eq_unsupported_iff]
    refine and_congr_left fun _ => ⟨fun h => ⟨items, rfl, h⟩, ?_⟩
    rintro ⟨_, ⟨⟩, h⟩
    exact h
  · rename_i v harray hparse
    refine ⟨nofun, ?_⟩
    rintro ⟨⟨items, hitems, -⟩, -⟩
    rw [hitems] at hparse
    cases hparse
    exact absurd rfl (harray items)

end Proof

end Trustless.Resolution
