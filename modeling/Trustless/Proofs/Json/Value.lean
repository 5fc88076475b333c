import Trustless.Json.Value
import Trustless.Proofs.Json.Token

/-!
# Values are read back from their text

The reader keeps the open containers on a stack. The tokens of a value, read where a value is
expected, leave the stack as it was and hand the value to the innermost container. That is shown for
a value, for the rest of an array and for the rest of an object at once, since each contains the
others.

* `Readable`: integers of 64 bits, keys in order, and not too many containers in each other.
* `insertFields`, `field?_ofFields`: the fields of an object, put in order one after the other.
* `asBytes?_ofBytes`: bytes are read back from a list of numbers.
* `run_tokens`: reading the tokens of a value delivers the value.
* `separated_tokens`: no two numbers stand side by side in them.
* `parse?_compact`, `ofBytes?_compact`: a readable value is read back from its text;
  `ofBytes?_compact_object` for an object whose keys are in any order.
-/

namespace Trustless.Json.Value

open Token (Separated EndsNumber)

mutual

/-- The values that are read back, inside `depth` open containers. -/
def Readable (depth : Nat) : Value → Prop
  | null | bool _ | string _ => True
  | number n => n.IsInteger
  | array items => depth < Reader.maxDepth ∧ ReadableItems (depth + 1) items
  | object fields => depth < Reader.maxDepth ∧ (fields.map Prod.fst).Pairwise (· < ·) ∧
      ReadableFields (depth + 1) fields

/-- All items of an array are read back. -/
def ReadableItems (depth : Nat) : List Value → Prop
  | [] => True
  | v :: vs => Readable depth v ∧ ReadableItems depth vs

/-- The values of all fields of an object are read back. -/
def ReadableFields (depth : Nat) : List (String × Value) → Prop
  | [] => True
  | (_, v) :: fs => Readable depth v ∧ ReadableFields depth fs

end

/-! ## Fields and bytes -/

/-- A field with a greater key than all others comes last. -/
theorem insertField_of_lt {key : String} {v : Value} :
    ∀ {fields : List (String × Value)}, (∀ k ∈ fields.map Prod.fst, k < key) →
      insertField key v fields = fields ++ [(key, v)]
  | [], _ => rfl
  | (k, w) :: fields, h => by
    have hk : k < key := h k List.mem_cons_self
    rw [insertField, if_neg (String.lt_asymm hk), if_neg, insertField_of_lt]
    · rfl
    · exact fun k' hk' => h k' (List.mem_cons_of_mem _ hk')
    · rintro rfl
      exact String.lt_irrefl key hk

/-- Puts fields one after the other into fields sorted by key. -/
def insertFields (fields fs : List (String × Value)) : List (String × Value) :=
  fs.foldl (fun acc f => insertField f.1 f.2 acc) fields

/-- Fields that are in order stay where they are. -/
theorem insertFields_of_sorted (fields fs : List (String × Value))
    (h : ((fields ++ fs).map Prod.fst).Pairwise (· < ·)) : insertFields fields fs = fields ++ fs := by
  induction fs generalizing fields with
  | nil => exact (List.append_nil fields).symm
  | cons f fs ih =>
    -- Each field comes behind all that are there, since its key is the greatest.
    have hlast : ∀ k ∈ fields.map Prod.fst, k < f.1 := by
      rw [List.map_append, List.pairwise_append] at h
      exact fun k hk => h.2.2 k hk f.1 List.mem_cons_self
    rw [List.append_cons] at h ⊢
    rw [← ih _ h, ← insertField_of_lt hlast]
    rfl

theorem ofFields_of_sorted {fields : List (String × Value)}
    (h : (fields.map Prod.fst).Pairwise (· < ·)) : ofFields fields = object fields :=
  congrArg object (insertFields_of_sorted [] fields h)

theorem lookup_insertField (key : String) (v : Value) (name : String) :
    ∀ fields : List (String × Value),
      (insertField key v fields).lookup name = ((key, v) :: fields).lookup name
  | [] => rfl
  | (k, w) :: fields => by
    unfold insertField
    split
    · rfl
    · split
      · next hkey =>
        subst hkey
        simp only [List.lookup_cons]
        cases name == key <;> rfl
      · next hkey =>
        rw [List.lookup_cons, lookup_insertField key v name fields]
        simp only [List.lookup_cons]
        by_cases hname : name = key
        · rw [beq_eq_false_iff_ne.mpr fun hk => hkey (hname.symm.trans hk)]
        · rw [beq_eq_false_iff_ne.mpr hname]

/-- Of two fields with one key the later one counts. -/
theorem lookup_insertFields (fields fs : List (String × Value)) (name : String) :
    (insertFields fields fs).lookup name = (fs.reverse ++ fields).lookup name := by
  induction fs generalizing fields with
  | nil => rfl
  | cons f fs ih =>
    show (insertFields (insertField f.1 f.2 fields) fs).lookup name = _
    rw [ih, List.lookup_append, lookup_insertField, ← List.lookup_append, List.reverse_cons,
      List.append_assoc]
    rfl

theorem lookup_reverse {fields : List (String × Value)} (h : (fields.map Prod.fst).Nodup)
    (name : String) : fields.reverse.lookup name = fields.lookup name := by
  induction fields with
  | nil => rfl
  | cons f fields ih =>
    obtain ⟨k, v⟩ := f
    obtain ⟨hnew, hnodup⟩ := List.nodup_cons.mp h
    rw [List.reverse_cons, List.lookup_append, ih hnodup, List.lookup_cons, List.lookup_cons]
    by_cases hname : name = k
    · have hnone : fields.lookup name = none := by
        rw [List.lookup_eq_none_iff]
        intro g hg
        rw [hname, bne_iff_ne]
        exact fun hkey => hnew (List.mem_map.mpr ⟨g, hg, hkey.symm⟩)
      rw [hnone, Option.none_or, beq_iff_eq.mpr hname]
    · rw [beq_eq_false_iff_ne.mpr hname]
      exact Option.or_none

/-- **The fields of an object with distinct keys are those it is made of.** -/
theorem field?_ofFields {fields : List (String × Value)} (h : (fields.map Prod.fst).Nodup)
    (name : String) : (ofFields fields).field? name = (object fields).field? name := by
  show (insertFields [] fields).lookup name = fields.lookup name
  rw [lookup_insertFields, List.append_nil, lookup_reverse h]

/-- A field is found under its key, if no other one has that key. -/
theorem field?_of_mem {fields : List (String × Value)} {key : String} {v : Value}
    (h : (fields.map Prod.fst).Nodup) (hmem : (key, v) ∈ fields) :
    (object fields).field? key = some v := by
  show fields.lookup key = some v
  induction fields with
  | nil => cases hmem
  | cons f fields ih =>
    obtain ⟨hnew, hnodup⟩ := List.nodup_cons.mp h
    obtain rfl | htail := List.mem_cons.mp hmem
    · exact List.lookup_cons_self
    · have hkey : key ≠ f.1 := by
        rintro rfl
        exact hnew (List.mem_map.mpr ⟨_, htail, rfl⟩)
      rw [List.lookup_cons, beq_eq_false_iff_ne.mpr hkey]
      exact ih hnodup htail

theorem mem_of_field? {fields : List (String × Value)} {key : String} {v : Value}
    (h : (object fields).field? key = some v) : (key, v) ∈ fields := by
  obtain ⟨before, after, rfl, -⟩ := List.lookup_eq_some_iff.mp h
  exact List.mem_append_right _ List.mem_cons_self

theorem asByte?_nat (x : UInt8) : (nat x.toNat).asByte? = some x := by
  show (if x.toNat < 256 then some x.toNat.toUInt8 else none) = some x
  rw [if_pos x.toNat_lt, Nat.toUInt8_eq, UInt8.ofNat_toNat]

/-- **Bytes are read back from their numbers.** -/
theorem asBytes?_ofBytes (b : ByteArray) : (ofBytes b).asBytes? = some b := by
  have hitems : ∀ bs : List UInt8, (bs.map fun x => nat x.toNat).mapM asByte? = some bs := by
    intro bs
    induction bs with
    | nil => rfl
    | cons x bs ih =>
      rw [List.map_cons, List.mapM_cons, asByte?_nat, ih]
      rfl
  show ((b.data.toList.map fun x => nat x.toNat).mapM asByte?).map _ = some b
  rw [hitems]
  rfl

/-- The text of bytes is read back, if one more container may be open. -/
theorem readable_ofBytes {depth : Nat} (h : depth < Reader.maxDepth) (b : ByteArray) :
    (ofBytes b).Readable depth := by
  have hitems : ∀ bs : List UInt8, ReadableItems (depth + 1) (bs.map fun x => nat x.toNat) := by
    intro bs
    induction bs with
    | nil => trivial
    | cons x bs ih => exact ⟨Nat.lt_trans x.toNat_lt (by decide), ih⟩
  exact ⟨h, hitems b.data.toList⟩

/-! ## Reading tokens -/

/-- The first token of a value does not close an array. -/
theorem tokens_eq_cons (v : Value) : ∃ t ts, v.tokens = t :: ts ∧ t ≠ .closeArray := by
  cases v with
  | null => exact ⟨_, _, rfl, nofun⟩
  | bool b => exact ⟨_, _, rfl, nofun⟩
  | number n => exact ⟨_, _, rfl, nofun⟩
  | string s => exact ⟨_, _, rfl, nofun⟩
  | array items => cases items <;> exact ⟨_, _, rfl, nofun⟩
  | object fields => cases fields <;> exact ⟨_, _, rfl, nofun⟩

theorem step_firstItem (stack : List Frame) {t : Token} (h : t ≠ .closeArray) :
    Reader.step ⟨.firstItem, stack⟩ t = Reader.step ⟨.value, .array [] :: stack⟩ t := by
  cases t with
  | closeArray => exact absurd rfl h
  | _ => rfl

/-- The first item of an array is read like any other value in it. -/
theorem run_firstItem (v : Value) (stack : List Frame) (ts : List Token) :
    Reader.run ⟨.firstItem, stack⟩ (v.tokens ++ ts)
      = Reader.run ⟨.value, .array [] :: stack⟩ (v.tokens ++ ts) := by
  obtain ⟨t, us, hv, ht⟩ := tokens_eq_cons v
  rw [hv, List.cons_append, Reader.run, Reader.run, step_firstItem stack ht]

theorem beginValue_openArray {stack : List Frame} (h : stack.length < Reader.maxDepth) :
    Reader.step ⟨.value, stack⟩ .openArray = some ⟨.firstItem, stack⟩ :=
  if_pos h

theorem beginValue_openObject {stack : List Frame} (h : stack.length < Reader.maxDepth) :
    Reader.step ⟨.value, stack⟩ .openObject = some ⟨.firstKey, stack⟩ :=
  if_pos h

mutual

/-- **Reading the tokens of a value delivers the value.** -/
theorem run_tokens (v : Value) (stack : List Frame) (h : v.Readable stack.length)
    (ts : List Token) :
    Reader.run ⟨.value, stack⟩ (v.tokens ++ ts) = Reader.run (Reader.deliver v stack) ts := by
  cases v with
  | null => rfl
  | bool b => rfl
  | number n => rfl
  | string s => rfl
  | array items =>
    obtain ⟨hdepth, hitems⟩ := h
    cases items with
    | nil =>
      show (Reader.step ⟨.value, stack⟩ .openArray).bind _ = _
      rw [beginValue_openArray hdepth]
      rfl
    | cons v vs =>
      -- The array itself is on the stack while its items are read.
      obtain ⟨hv, hvs⟩ := hitems
      show (Reader.step ⟨.value, stack⟩ .openArray).bind _ = _
      rw [beginValue_openArray hdepth, Option.bind_some]
      show Reader.run ⟨.firstItem, stack⟩ (v.tokens ++ itemTokens vs ++ ts) = _
      rw [List.append_assoc, run_firstItem, run_tokens v (.array [] :: stack) hv]
      exact run_itemTokens vs hvs [v] ts
  | object fields =>
    obtain ⟨hdepth, hsorted, hfields⟩ := h
    rw [run_object fields hdepth hfields, ofFields_of_sorted hsorted]

/-- An object is read with its fields put in order. -/
theorem run_object (fields : List (String × Value)) {stack : List Frame}
    (hdepth : stack.length < Reader.maxDepth) (h : ReadableFields (stack.length + 1) fields)
    (ts : List Token) : Reader.run ⟨.value, stack⟩ ((object fields).tokens ++ ts)
      = Reader.run (Reader.deliver (ofFields fields) stack) ts := by
  cases fields with
  | nil =>
    show (Reader.step ⟨.value, stack⟩ .openObject).bind _ = _
    rw [beginValue_openObject hdepth]
    rfl
  | cons f fs =>
    obtain ⟨k, v⟩ := f
    obtain ⟨hv, hfs⟩ := h
    show (Reader.step ⟨.value, stack⟩ .openObject).bind _ = _
    rw [beginValue_openObject hdepth, Option.bind_some]
    show Reader.run ⟨.value, .object [] k :: stack⟩ (v.tokens ++ fieldTokens fs ++ ts) = _
    rw [List.append_assoc, run_tokens v (.object [] k :: stack) hv]
    exact run_fieldTokens fs hfs [(k, v)] ts

/-- The rest of an array is read behind the items before it. -/
theorem run_itemTokens (vs : List Value) {stack : List Frame}
    (h : ReadableItems (stack.length + 1) vs) (items : List Value) (ts : List Token) :
    Reader.run ⟨.afterItem items, stack⟩ (itemTokens vs ++ ts)
      = Reader.run (Reader.deliver (.array (items.reverse ++ vs)) stack) ts := by
  cases vs with
  | nil =>
    rw [List.append_nil]
    rfl
  | cons v vs =>
    obtain ⟨hv, hvs⟩ := h
    show Reader.run ⟨.value, .array items :: stack⟩ (v.tokens ++ itemTokens vs ++ ts) = _
    rw [List.append_assoc, run_tokens v (.array items :: stack) hv]
    show Reader.run ⟨.afterItem (v :: items), stack⟩ (itemTokens vs ++ ts) = _
    rw [run_itemTokens vs hvs, List.reverse_cons, List.append_assoc, List.singleton_append]

/-- The rest of an object is put into the fields before it. -/
theorem run_fieldTokens (fs : List (String × Value)) {stack : List Frame}
    (h : ReadableFields (stack.length + 1) fs) (fields : List (String × Value)) (ts : List Token) :
    Reader.run ⟨.afterField fields, stack⟩ (fieldTokens fs ++ ts)
      = Reader.run (Reader.deliver (.object (insertFields fields fs)) stack) ts := by
  cases fs with
  | nil => rfl
  | cons f fs =>
    obtain ⟨k, v⟩ := f
    obtain ⟨hv, hfs⟩ := h
    show Reader.run ⟨.value, .object fields k :: stack⟩ (v.tokens ++ fieldTokens fs ++ ts) = _
    rw [List.append_assoc, run_tokens v (.object fields k :: stack) hv]
    exact run_fieldTokens fs hfs (insertField k v fields) ts

end

/-! ## Reading texts -/

theorem endsNumber_itemTokens (vs : List Value) (ts : List Token) :
    EndsNumber ((itemTokens vs ++ ts).flatMap Token.toChars) := by
  intro c hc
  cases vs with
  | nil =>
    obtain rfl := Option.some.inj hc
    rfl
  | cons v vs =>
    obtain rfl := Option.some.inj hc
    rfl

theorem endsNumber_fieldTokens (fs : List (String × Value)) (ts : List Token) :
    EndsNumber ((fieldTokens fs ++ ts).flatMap Token.toChars) := by
  intro c hc
  cases fs with
  | nil =>
    obtain rfl := Option.some.inj hc
    rfl
  | cons f fs =>
    obtain rfl := Option.some.inj hc
    rfl

mutual

/-- **No two numbers stand side by side** in the tokens of a value. -/
theorem separated_tokens (v : Value) {depth : Nat} (h : v.Readable depth) {ts : List Token}
    (hts : Separated ts) (hend : EndsNumber (ts.flatMap Token.toChars)) :
    Separated (v.tokens ++ ts) := by
  cases v with
  | null => exact ⟨trivial, trivial, hts⟩
  | bool b => exact ⟨trivial, trivial, hts⟩
  | number n => exact ⟨h, hend, hts⟩
  | string s => exact ⟨trivial, trivial, hts⟩
  | array items =>
    obtain ⟨-, hitems⟩ := h
    cases items with
    | nil => exact ⟨trivial, trivial, trivial, trivial, hts⟩
    | cons v vs =>
      refine ⟨trivial, trivial, ?_⟩
      show Separated (v.tokens ++ itemTokens vs ++ ts)
      rw [List.append_assoc]
      exact separated_tokens v hitems.1 (separated_itemTokens vs hitems.2 hts)
        (endsNumber_itemTokens vs ts)
  | object fields => exact separated_object fields h.2.2 hts

theorem separated_object (fields : List (String × Value)) {depth : Nat}
    (h : ReadableFields depth fields) {ts : List Token} (hts : Separated ts) :
    Separated ((object fields).tokens ++ ts) := by
  cases fields with
  | nil => exact ⟨trivial, trivial, trivial, trivial, hts⟩
  | cons f fs =>
    obtain ⟨k, v⟩ := f
    refine ⟨trivial, trivial, trivial, trivial, trivial, trivial, ?_⟩
    show Separated (v.tokens ++ fieldTokens fs ++ ts)
    rw [List.append_assoc]
    exact separated_tokens v h.1 (separated_fieldTokens fs h.2 hts) (endsNumber_fieldTokens fs ts)

theorem separated_itemTokens (vs : List Value) {depth : Nat} (h : ReadableItems depth vs)
    {ts : List Token} (hts : Separated ts) : Separated (itemTokens vs ++ ts) := by
  cases vs with
  | nil => exact ⟨trivial, trivial, hts⟩
  | cons v vs =>
    refine ⟨trivial, trivial, ?_⟩
    show Separated (v.tokens ++ itemTokens vs ++ ts)
    rw [List.append_assoc]
    exact separated_tokens v h.1 (separated_itemTokens vs h.2 hts) (endsNumber_itemTokens vs ts)

theorem separated_fieldTokens (fs : List (String × Value)) {depth : Nat}
    (h : ReadableFields depth fs) {ts : List Token} (hts : Separated ts) :
    Separated (fieldTokens fs ++ ts) := by
  cases fs with
  | nil => exact ⟨trivial, trivial, hts⟩
  | cons f fs =>
    obtain ⟨k, v⟩ := f
    refine ⟨trivial, trivial, trivial, trivial, trivial, trivial, ?_⟩
    show Separated (v.tokens ++ fieldTokens fs ++ ts)
    rw [List.append_assoc]
    exact separated_tokens v h.1 (separated_fieldTokens fs h.2 hts) (endsNumber_fieldTokens fs ts)

end

/-- Tokens are the value that the reader delivers for them. -/
theorem ofTokens?_of_run {v w : Value}
    (h : ∀ ts, Reader.run .start (v.tokens ++ ts) = Reader.run (Reader.deliver w []) ts) :
    ofTokens? v.tokens = some w := by
  have hrun := h []
  rw [List.append_nil] at hrun
  unfold ofTokens?
  rw [hrun]
  rfl

/-- A text is read as the tokens it was made of. -/
theorem parse?_compact_of_separated {v : Value} (h : Separated (v.tokens ++ [])) :
    parse? v.compact = ofTokens? v.tokens := by
  rw [List.append_nil] at h
  unfold parse? compact
  rw [String.toList_ofList, Token.scan?_toChars h]
  rfl

/-- **A value is read back from its text.** -/
theorem parse?_compact {v : Value} (h : v.Readable 0) : parse? v.compact = some v := by
  rw [parse?_compact_of_separated (separated_tokens v h trivial nofun)]
  exact ofTokens?_of_run (run_tokens v [] h)

/-- A text is read back from its bytes. -/
theorem fromUTF8?_ofString (s : String) : String.fromUTF8? (Bytes.ofString s) = some s :=
  dif_pos s.isValidUTF8

theorem ofBytes?_compact {v : Value} (h : v.Readable 0) :
    ofBytes? (Bytes.ofString v.compact) = some v := by
  unfold ofBytes?
  rw [fromUTF8?_ofString]
  exact parse?_compact h

/-- **An object is read back from its text with its fields put in order.** -/
theorem ofBytes?_compact_object {fields : List (String × Value)} (h : ReadableFields 1 fields) :
    ofBytes? (Bytes.ofString (object fields).compact) = some (ofFields fields) := by
  unfold ofBytes?
  rw [fromUTF8?_ofString]
  show parse? (object fields).compact = _
  rw [parse?_compact_of_separated (separated_object fields h trivial)]
  exact ofTokens?_of_run (run_object fields (by decide) h)

end Trustless.Json.Value
