import Trustless.Proofs.Portal.Read
import Trustless.Proofs.Portal.Requests

/-!
# What a read comes to

A read walks along the portals until an answer holds an entry with the owner's signature, or says
that the entry is of the other type. Only if every portal was asked and failed do reports of a missing
entry count.

* `NoEntry`, `fails_acceptEntry_iff`: the answers that are passed over.
* `Client.readEntry_cases`: the ways of a read.
* `Client.readEntry_eq_found_iff`, `readEntry_eq_unsupported_iff`, `readEntry_eq_missing_iff`,
  `readEntry_eq_exhausted_iff`, `readEntry_eq_noPortals_iff`: when each result comes about.
* `Client.asked_readEntry`, `asked_of_noEntry`: which requests are made.
* `Client.ReadOutcome`, `Client.readEntry_outcome`: all of it at once.
-/

namespace Trustless.Portal

open Registry (Entry typeWithKey)

variable {owner : PublicKey} {dataKey : ByteVector 32} {σ : Type}

/-! ## Answers that are passed over -/

/-- An answer that holds no entry with the owner's signature: there is none, its status does not mean
success, or its body is malformed or not signed. -/
inductive NoEntry (owner : PublicKey) (dataKey : ByteVector 32) :
    Except TransportError Response → Prop
  | request (e : TransportError) : NoEntry owner dataKey (.error e)
  | status {r : Response} : r.isSuccess = false → NoEntry owner dataKey (.ok r)
  | malformed {r : Response} {fault : EntryFault} : r.isSuccess = true →
      Entry.ofResponse r.body = .error (.malformedResponse fault) → NoEntry owner dataKey (.ok r)
  | unsigned {r : Response} {e : Entry} : r.isSuccess = true → Entry.ofResponse r.body = .ok e →
      e.verify owner dataKey = false → NoEntry owner dataKey (.ok r)

/-- What is rejected as an answer to a read. -/
theorem acceptEntry_rejects_iff {r : Response} :
    (∃ reason, acceptEntry owner dataKey r = .error reason) ↔
      (∃ fault, Entry.ofResponse r.body = .error (.malformedResponse fault)) ∨
        ∃ e, Entry.ofResponse r.body = .ok e ∧ e.verify owner dataKey = false := by
  unfold acceptEntry
  cases hread : Entry.ofResponse r.body with
  | ok e =>
    cases hverify : e.verify owner dataKey with
    | true =>
      dsimp only
      rw [hverify]
      refine ⟨nofun, ?_⟩
      rintro (⟨fault, ⟨⟩⟩ | ⟨_, ⟨⟩, hunsigned⟩)
      cases hverify.symm.trans hunsigned
    | false =>
      dsimp only
      rw [hverify]
      exact ⟨fun _ => .inr ⟨e, rfl, hverify⟩, fun _ => ⟨_, rfl⟩⟩
  | error e =>
    rcases Entry.failsWith_ofResponse r.body e hread with ⟨type, rfl⟩ | ⟨fault, rfl⟩
    · refine ⟨nofun, ?_⟩
      rintro (⟨fault, ⟨⟩⟩ | ⟨_, ⟨⟩, -⟩)
    · exact ⟨fun _ => .inl ⟨fault, rfl⟩, fun _ => ⟨_, rfl⟩⟩

/-- **An answer is passed over exactly if it holds no entry with the owner's signature** and does not
say that it is of the other type. -/
theorem fails_acceptEntry_iff {v : Visit} :
    v.Fails (acceptEntry owner dataKey) ↔ NoEntry owner dataKey v.answer := by
  rw [Visit.fails_iff]
  constructor
  · rintro (⟨e, he⟩ | ⟨r, hr, hstatus | ⟨hsuccess, hrejects⟩⟩)
    · rw [he]
      exact .request e
    · rw [hr]
      exact .status hstatus
    · rw [hr]
      rcases acceptEntry_rejects_iff.mp hrejects with ⟨fault, hmalformed⟩ | ⟨e, hread, hverify⟩
      · exact .malformed hsuccess hmalformed
      · exact .unsigned hsuccess hread hverify
  · intro h
    cases hv : v.answer with
    | error e => exact .inl ⟨e, rfl⟩
    | ok r =>
      rw [hv] at h
      refine .inr ⟨r, rfl, ?_⟩
      cases h with
      | status hstatus => exact .inl hstatus
      | malformed hsuccess hmalformed =>
        exact .inr ⟨hsuccess, acceptEntry_rejects_iff.mpr (.inl ⟨_, hmalformed⟩)⟩
      | unsigned hsuccess hread hverify =>
        exact .inr ⟨hsuccess, acceptEntry_rejects_iff.mpr (.inr ⟨_, hread, hverify⟩)⟩

theorem forall_fails_iff {vs : List Visit} :
    (∀ v ∈ vs, v.Fails (acceptEntry owner dataKey)) ↔ ∀ v ∈ vs, NoEntry owner dataKey v.answer :=
  forall₂_congr fun _ _ => fails_acceptEntry_iff

theorem acceptEntry_of_holdsSigned {e : Entry} (r : Response)
    (h : HoldsSigned owner dataKey r.body e) : acceptEntry owner dataKey r = .ok (.ok e) :=
  acceptEntry_eq_ok_iff.mpr (.inl ⟨e, h, rfl⟩)

theorem acceptEntry_of_holdsKeyType (r : Response) (h : HoldsKeyType r.body) :
    acceptEntry owner dataKey r = .ok (.error (.unsupportedEntryType typeWithKey)) :=
  acceptEntry_eq_ok_iff.mpr (.inr ⟨h, rfl⟩)

/-- The answer at place `j` is the first that is not passed over, and its body is of a kind. -/
structure FirstHolding (owner : PublicKey) (dataKey : ByteVector 32) (vs : List Visit) (j : Nat)
    (P : ByteArray → Prop) : Prop where
  here : ∃ portal r, vs[j]? = some ⟨portal, .ok r⟩ ∧ r.isSuccess = true ∧ P r.body
  before : ∀ v ∈ vs.take j, NoEntry owner dataKey v.answer

/-- The first answer that is accepted is one that holds a signed entry or is of the other type. -/
theorem firstHolding_of_firstAt {vs : List Visit} {j : Nat} {v : Visit} {r : Response}
    {output : Except RegistryError Entry}
    (h : FirstAt (acceptEntry owner dataKey) vs j v r output) :
    (∃ e, FirstHolding owner dataKey vs j (HoldsSigned owner dataKey · e)) ∨
      FirstHolding owner dataKey vs j HoldsKeyType := by
  obtain ⟨hplace, hbefore, hpasses⟩ := h
  obtain ⟨hanswer, hsuccess, haccepted⟩ := Visit.passes_iff.mp hpasses
  have hplace : vs[j]? = some ⟨v.portal, .ok r⟩ := hanswer ▸ hplace
  have hbefore := forall_fails_iff.mp hbefore
  rcases acceptEntry_eq_ok_iff.mp haccepted with ⟨e, hsigned, -⟩ | ⟨htype, -⟩
  · exact .inl ⟨e, ⟨_, r, hplace, hsuccess, hsigned⟩, hbefore⟩
  · exact .inr ⟨⟨_, r, hplace, hsuccess, htype⟩, hbefore⟩

theorem FirstHolding.firstAt {vs : List Visit} {j : Nat} {P : ByteArray → Prop}
    {output : Except RegistryError Entry} (h : FirstHolding owner dataKey vs j P)
    (haccepted : ∀ r : Response, P r.body → acceptEntry owner dataKey r = .ok output) :
    ∃ v r, FirstAt (acceptEntry owner dataKey) vs j v r output := by
  obtain ⟨⟨portal, r, hplace, hsuccess, hbody⟩, hbefore⟩ := h
  exact ⟨_, r, hplace, forall_fails_iff.mpr hbefore,
    Visit.passes_iff.mpr ⟨rfl, hsuccess, haccepted r hbody⟩⟩

/-- An answer that is accepted holds an entry. -/
theorem FirstHolding.not_noEntry {vs : List Visit} {j : Nat} {P : ByteArray → Prop}
    {output : Except RegistryError Entry} (h : FirstHolding owner dataKey vs j P)
    (haccepted : ∀ r : Response, P r.body → acceptEntry owner dataKey r = .ok output) :
    ∃ v, vs[j]? = some v ∧ ¬ NoEntry owner dataKey v.answer := by
  obtain ⟨v, r, hfirst⟩ := h.firstAt haccepted
  refine ⟨v, hfirst.here, fun hno => ?_⟩
  obtain ⟨cause, hcause⟩ := fails_acceptEntry_iff.mpr hno
  cases hcause.symm.trans hfirst.passes

namespace Client

variable {c : Client σ} {s : σ} {j : Nat} {e : Entry}

/-! ## The ways of a read -/

/-- What the portals answer to a read, if all of them are asked. -/
def readAnswers (c : Client σ) (owner : PublicKey) (dataKey : ByteVector 32) (s : σ) :
    List Visit :=
  c.transport.visits (readRequest owner dataKey) c.config.portals s

theorem readEntry_of_nil (h : c.config.portals = []) (owner : PublicKey)
    (dataKey : ByteVector 32) (s : σ) :
    (c.readEntry owner dataKey).run s = (.error .noPortals, s) := by
  have hask := ask_of_nil h (readRequest owner dataKey) (acceptEntry owner dataKey) s
  unfold readEntry
  unfold ExceptT.run at hask ⊢
  dsimp only
  rw [hask]

theorem readEntry_of_holdsSigned
    (h : FirstHolding owner dataKey (c.readAnswers owner dataKey s) j
      (HoldsSigned owner dataKey · e)) :
    (c.readEntry owner dataKey).run s = (.ok (some e),
      c.transport.after (readRequest owner dataKey) (c.config.portals.take (j + 1)) s) := by
  obtain ⟨v, r, hfirst⟩ := h.firstAt acceptEntry_of_holdsSigned
  exact readEntry_of_accepted hfirst

theorem readEntry_of_holdsKeyType
    (h : FirstHolding owner dataKey (c.readAnswers owner dataKey s) j HoldsKeyType) :
    (c.readEntry owner dataKey).run s = (.error (.registry (.unsupportedEntryType typeWithKey)),
      c.transport.after (readRequest owner dataKey) (c.config.portals.take (j + 1)) s) := by
  obtain ⟨v, r, hfirst⟩ := h.firstAt acceptEntry_of_holdsKeyType
  exact readEntry_of_accepted hfirst

/-- If no portal has the entry, the reports of a missing one are counted. -/
theorem readEntry_of_noEntry (hportals : c.config.portals ≠ [])
    (h : ∀ v ∈ c.readAnswers owner dataKey s, NoEntry owner dataKey v.answer) :
    (c.readEntry owner dataKey).run s =
      (if c.config.effectiveQuorum ≤ answersWith 404 (c.readAnswers owner dataKey s) then .ok none
        else .error (.exhausted
          (failures (acceptEntry owner dataKey) (c.readAnswers owner dataKey s))),
        c.transport.after (readRequest owner dataKey) c.config.portals s) := by
  have hfails := forall_fails_iff.mpr h
  have hask := ask_of_none hportals hfails
  have hmissing (fs : List Failure) :
      c.missing fs = true ↔ c.config.effectiveQuorum ≤ Failure.countStatus 404 fs := decide_eq_true_iff
  rw [← countStatus_failures hfails 404]
  unfold readEntry
  unfold ExceptT.run at hask ⊢
  dsimp only
  rw [hask]
  dsimp only
  by_cases h404 : c.missing
      (failures (acceptEntry owner dataKey) (c.readAnswers owner dataKey s)) = true
  · rw [if_pos ((hmissing _).mp h404)]
    exact if_pos h404
  · rw [if_neg (mt (hmissing _).mpr h404)]
    exact if_neg h404

/-- **The ways of a read**: there are no portals; the first answer that is not passed over holds a
signed entry, or is of the other type; no portal has the entry, and enough of them report that it is
missing, or not enough. -/
theorem readEntry_cases (c : Client σ) (owner : PublicKey) (dataKey : ByteVector 32) (s : σ) :
    (c.config.portals = [] ∧ (c.readEntry owner dataKey).run s = (.error .noPortals, s)) ∨
    (∃ j e, FirstHolding owner dataKey (c.readAnswers owner dataKey s) j
        (HoldsSigned owner dataKey · e) ∧
      (c.readEntry owner dataKey).run s = (.ok (some e),
        c.transport.after (readRequest owner dataKey) (c.config.portals.take (j + 1)) s)) ∨
    (∃ j, FirstHolding owner dataKey (c.readAnswers owner dataKey s) j HoldsKeyType ∧
      (c.readEntry owner dataKey).run s = (.error (.registry (.unsupportedEntryType typeWithKey)),
        c.transport.after (readRequest owner dataKey) (c.config.portals.take (j + 1)) s)) ∨
    (c.config.portals ≠ [] ∧ (∀ v ∈ c.readAnswers owner dataKey s, NoEntry owner dataKey v.answer) ∧
      c.config.effectiveQuorum ≤ answersWith 404 (c.readAnswers owner dataKey s) ∧
      (c.readEntry owner dataKey).run s = (.ok none,
        c.transport.after (readRequest owner dataKey) c.config.portals s)) ∨
    (c.config.portals ≠ [] ∧ (∀ v ∈ c.readAnswers owner dataKey s, NoEntry owner dataKey v.answer) ∧
      answersWith 404 (c.readAnswers owner dataKey s) < c.config.effectiveQuorum ∧
      (c.readEntry owner dataKey).run s = (.error (.exhausted
          (failures (acceptEntry owner dataKey) (c.readAnswers owner dataKey s))),
        c.transport.after (readRequest owner dataKey) c.config.portals s)) := by
  by_cases hportals : c.config.portals = []
  · exact .inl ⟨hportals, readEntry_of_nil hportals owner dataKey s⟩
  rcases firstAt_or_fails (acceptEntry owner dataKey) (c.readAnswers owner dataKey s) with
    ⟨j, v, r, output, hfirst⟩ | hfails
  · rcases firstHolding_of_firstAt hfirst with ⟨e, hsigned⟩ | htype
    · exact .inr (.inl ⟨j, e, hsigned, readEntry_of_holdsSigned hsigned⟩)
    · exact .inr (.inr (.inl ⟨j, htype, readEntry_of_holdsKeyType htype⟩))
  · have hno := forall_fails_iff.mp hfails
    have hrun := readEntry_of_noEntry hportals hno
    by_cases hquorum :
        c.config.effectiveQuorum ≤ answersWith 404 (c.readAnswers owner dataKey s)
    · rw [if_pos hquorum] at hrun
      exact .inr (.inr (.inr (.inl ⟨hportals, hno, hquorum, hrun⟩)))
    · rw [if_neg hquorum] at hrun
      exact .inr (.inr (.inr (.inr ⟨hportals, hno, Nat.lt_of_not_le hquorum, hrun⟩)))

/-! ## The results of a read -/

theorem readEntry_eq_found_iff : ((c.readEntry owner dataKey).run s).1 = .ok (some e) ↔
    ∃ j, FirstHolding owner dataKey (c.readAnswers owner dataKey s) j
      (HoldsSigned owner dataKey · e) := by
  constructor
  · intro h
    rcases c.readEntry_cases owner dataKey s with
      ⟨-, hrun⟩ | ⟨j, e', hsigned, hrun⟩ | ⟨j, -, hrun⟩ | ⟨-, -, -, hrun⟩ | ⟨-, -, -, hrun⟩ <;>
      rw [hrun] at h <;> cases h
    exact ⟨j, hsigned⟩
  · rintro ⟨j, hsigned⟩
    rw [readEntry_of_holdsSigned hsigned]

theorem readEntry_eq_unsupported_iff :
    ((c.readEntry owner dataKey).run s).1
        = .error (.registry (.unsupportedEntryType typeWithKey)) ↔
      ∃ j, FirstHolding owner dataKey (c.readAnswers owner dataKey s) j HoldsKeyType := by
  constructor
  · intro h
    rcases c.readEntry_cases owner dataKey s with
      ⟨-, hrun⟩ | ⟨j, e', -, hrun⟩ | ⟨j, htype, hrun⟩ | ⟨-, -, -, hrun⟩ | ⟨-, -, -, hrun⟩ <;>
      rw [hrun] at h <;> cases h
    exact ⟨j, htype⟩
  · rintro ⟨j, htype⟩
    rw [readEntry_of_holdsKeyType htype]

theorem readEntry_eq_noPortals_iff :
    ((c.readEntry owner dataKey).run s).1 = .error .noPortals ↔ c.config.portals = [] := by
  constructor
  · intro h
    rcases c.readEntry_cases owner dataKey s with
      ⟨hnil, hrun⟩ | ⟨j, e', -, hrun⟩ | ⟨j, -, hrun⟩ | ⟨-, -, -, hrun⟩ | ⟨-, -, -, hrun⟩ <;>
      rw [hrun] at h <;> cases h
    exact hnil
  · intro hnil
    rw [readEntry_of_nil hnil]

/-- **An entry is missing exactly if no portal has it and enough of them report that**, all being
asked. -/
theorem readEntry_eq_missing_iff : ((c.readEntry owner dataKey).run s).1 = .ok none ↔
    c.config.portals ≠ [] ∧
      (∀ v ∈ c.readAnswers owner dataKey s, NoEntry owner dataKey v.answer) ∧
      c.config.effectiveQuorum ≤ answersWith 404 (c.readAnswers owner dataKey s) := by
  constructor
  · intro h
    rcases c.readEntry_cases owner dataKey s with
      ⟨-, hrun⟩ | ⟨j, e', -, hrun⟩ | ⟨j, -, hrun⟩ | ⟨hportals, hno, hquorum, hrun⟩ |
      ⟨-, -, -, hrun⟩ <;>
      rw [hrun] at h <;> cases h
    exact ⟨hportals, hno, hquorum⟩
  · rintro ⟨hportals, hno, hquorum⟩
    rw [readEntry_of_noEntry hportals hno, if_pos hquorum]

theorem readEntry_eq_exhausted_iff {fs : List Failure} :
    ((c.readEntry owner dataKey).run s).1 = .error (.exhausted fs) ↔
      c.config.portals ≠ [] ∧
        (∀ v ∈ c.readAnswers owner dataKey s, NoEntry owner dataKey v.answer) ∧
        answersWith 404 (c.readAnswers owner dataKey s) < c.config.effectiveQuorum ∧
        fs = failures (acceptEntry owner dataKey) (c.readAnswers owner dataKey s) := by
  constructor
  · intro h
    rcases c.readEntry_cases owner dataKey s with
      ⟨-, hrun⟩ | ⟨j, e', -, hrun⟩ | ⟨j, -, hrun⟩ | ⟨-, -, -, hrun⟩ |
      ⟨hportals, hno, hquorum, hrun⟩ <;>
      rw [hrun] at h <;> cases h
    exact ⟨hportals, hno, hquorum, rfl⟩
  · rintro ⟨hportals, hno, hquorum, rfl⟩
    rw [readEntry_of_noEntry hportals hno, if_neg (Nat.not_le_of_lt hquorum)]

/-! ## With a record -/

/-- A record changes no answer to a read. -/
theorem readAnswers_recorded (c : Client σ) (owner : PublicKey) (dataKey : ByteVector 32) (s : σ)
    (log : List Asked) :
    c.recorded.readAnswers owner dataKey (s, log) = c.readAnswers owner dataKey s :=
  c.transport.visits_recorded log _ _ s

/-- **The walk of a read goes past every answer that holds no entry**: either all portals are asked,
or the last one that is asked is the first to give another answer. -/
theorem asked_readEntry (c : Client σ) (owner : PublicKey) (dataKey : ByteVector 32) (s : σ)
    (log : List Asked) :
    ((c.recorded.readEntry owner dataKey).run (s, log)).2.2
        = log ++ sentTo (readRequest owner dataKey) c.config.portals ∨
      ∃ j v, (c.readAnswers owner dataKey s)[j]? = some v ∧ ¬ NoEntry owner dataKey v.answer ∧
        (∀ u ∈ (c.readAnswers owner dataKey s).take j, NoEntry owner dataKey u.answer) ∧
        ((c.recorded.readEntry owner dataKey).run (s, log)).2.2
          = log ++ sentTo (readRequest owner dataKey) (c.config.portals.take (j + 1)) := by
  have hasked (portals : List String) : (c.recorded.transport.after (readRequest owner dataKey)
      portals (s, log)).2 = log ++ sentTo (readRequest owner dataKey) portals :=
    congrArg Prod.snd (c.transport.after_recorded log _ portals s)
  rcases c.recorded.readEntry_cases owner dataKey (s, log) with
    ⟨hnil, hrun⟩ | ⟨j, e, hsigned, hrun⟩ | ⟨j, htype, hrun⟩ | ⟨-, -, -, hrun⟩ | ⟨-, -, -, hrun⟩
  · rw [hrun, show c.config.portals = [] from hnil]
    exact .inl (List.append_nil log).symm
  · rw [readAnswers_recorded] at hsigned
    obtain ⟨v, hplace, hentry⟩ := hsigned.not_noEntry acceptEntry_of_holdsSigned
    rw [hrun]
    exact .inr ⟨j, v, hplace, hentry, hsigned.before, hasked _⟩
  · rw [readAnswers_recorded] at htype
    obtain ⟨v, hplace, hentry⟩ := htype.not_noEntry acceptEntry_of_holdsKeyType
    rw [hrun]
    exact .inr ⟨j, v, hplace, hentry, htype.before, hasked _⟩
  · rw [hrun]
    exact .inl (hasked _)
  · rw [hrun]
    exact .inl (hasked _)

/-- If no portal has the entry, all of them are asked. -/
theorem asked_of_noEntry (h : ∀ v ∈ c.readAnswers owner dataKey s, NoEntry owner dataKey v.answer)
    (log : List Asked) : ((c.recorded.readEntry owner dataKey).run (s, log)).2.2
      = log ++ sentTo (readRequest owner dataKey) c.config.portals := by
  refine (c.asked_readEntry owner dataKey s log).resolve_right ?_
  rintro ⟨j, v, hplace, hentry, -⟩
  exact hentry (h v (List.mem_of_getElem? hplace))

/-! ## All of it -/

/-- What a read comes to, by the answers of all portals: its result, and the requests it makes. -/
structure ReadOutcome (owner : PublicKey) (dataKey : ByteVector 32) (config : Config)
    (vs : List Visit) (result : Except PortalError (Option Entry)) (asked : List Asked) : Prop where
  /-- An entry is found exactly if the first answer that is not passed over holds it, signed. -/
  found : ∀ e, result = .ok (some e) ↔
    ∃ j, FirstHolding owner dataKey vs j (HoldsSigned owner dataKey · e)
  /-- The entry is missing exactly if all portals are asked, none has it, and enough report that. -/
  missing : result = .ok none ↔ config.portals ≠ [] ∧
    asked = sentTo (readRequest owner dataKey) config.portals ∧
    (∀ v ∈ vs, NoEntry owner dataKey v.answer) ∧
    max 1 (min config.notFoundQuorum config.portals.length) ≤ answersWith 404 vs
  /-- The read is exhausted exactly if all portals are asked, none has it, and too few report that. -/
  exhausted : (∃ fs, result = .error (.exhausted fs)) ↔ config.portals ≠ [] ∧
    asked = sentTo (readRequest owner dataKey) config.portals ∧
    (∀ v ∈ vs, NoEntry owner dataKey v.answer) ∧
    answersWith 404 vs < max 1 (min config.notFoundQuorum config.portals.length)
  /-- Then every portal is reported in order, with what it answered. -/
  reports : ∀ fs, result = .error (.exhausted fs) → fs.length = config.portals.length ∧
    fs.map Failure.portal = config.portals ∧ fs.map Failure.response? = vs.map Visit.response?
  noPortals : result = .error .noPortals ↔ config.portals = []
  /-- Nothing else fails a read but an object of the other type that is the first not passed over. -/
  unsupported : ∀ e, e ≠ .noPortals → (∀ fs, e ≠ .exhausted fs) → (result = .error e ↔
    e = .registry (.unsupportedEntryType typeWithKey) ∧
      ∃ j, FirstHolding owner dataKey vs j HoldsKeyType)
  /-- The walk goes past every answer that holds no entry, and only past those. -/
  walk : asked = sentTo (readRequest owner dataKey) config.portals ∨
    ∃ j v, vs[j]? = some v ∧ ¬ NoEntry owner dataKey v.answer ∧
      (∀ u ∈ vs.take j, NoEntry owner dataKey u.answer) ∧
      asked = sentTo (readRequest owner dataKey) (config.portals.take (j + 1))

/-- If no portal has the entry, every portal is reported in order, with what it answered. -/
theorem reports_of_noEntry
    (h : ∀ v ∈ c.readAnswers owner dataKey s, NoEntry owner dataKey v.answer) :
    (failures (acceptEntry owner dataKey) (c.readAnswers owner dataKey s)).map Failure.portal
        = c.config.portals ∧
      (failures (acceptEntry owner dataKey) (c.readAnswers owner dataKey s)).map Failure.response?
        = (c.readAnswers owner dataKey s).map Visit.response? := by
  have hfails := forall_fails_iff.mpr h
  refine ⟨?_, map_response_failures hfails⟩
  rw [map_portal_failures hfails]
  exact c.transport.map_portal_visits _ _ s

/-- **What a read comes to**, for every client and whatever its portals answer. -/
theorem readEntry_outcome (c : Client σ) (owner : PublicKey) (dataKey : ByteVector 32) (s : σ) :
    ReadOutcome owner dataKey c.config (c.readAnswers owner dataKey s)
      ((c.recorded.readEntry owner dataKey).run (s, [])).1
      ((c.recorded.readEntry owner dataKey).run (s, [])).2.2 := by
  rw [← c.readAnswers_recorded owner dataKey s []]
  have hasked (hno : ∀ v ∈ c.recorded.readAnswers owner dataKey (s, []),
      NoEntry owner dataKey v.answer) :
      ((c.recorded.readEntry owner dataKey).run (s, [])).2.2
        = sentTo (readRequest owner dataKey) c.config.portals := by
    rw [readAnswers_recorded] at hno
    exact asked_of_noEntry hno []
  constructor
  case found => exact fun e => readEntry_eq_found_iff
  case missing =>
    refine readEntry_eq_missing_iff.trans ⟨?_, ?_⟩
    · rintro ⟨hportals, hno, hquorum⟩
      exact ⟨hportals, hasked hno, hno, hquorum⟩
    · rintro ⟨hportals, -, hno, hquorum⟩
      exact ⟨hportals, hno, hquorum⟩
  case exhausted =>
    constructor
    · rintro ⟨fs, hfs⟩
      obtain ⟨hportals, hno, hquorum, -⟩ := readEntry_eq_exhausted_iff.mp hfs
      exact ⟨hportals, hasked hno, hno, hquorum⟩
    · rintro ⟨hportals, -, hno, hquorum⟩
      exact ⟨_, readEntry_eq_exhausted_iff.mpr ⟨hportals, hno, hquorum, rfl⟩⟩
  case reports =>
    intro fs hfs
    obtain ⟨-, hno, -, rfl⟩ := readEntry_eq_exhausted_iff.mp hfs
    obtain ⟨hportal, hresponse⟩ := reports_of_noEntry hno
    exact ⟨by rw [← List.length_map Failure.portal, hportal]; rfl, hportal, hresponse⟩
  case noPortals => exact readEntry_eq_noPortals_iff
  case unsupported =>
    intro e hnoPortals hexhausted
    constructor
    · intro h
      rcases c.recorded.readEntry_cases owner dataKey (s, []) with
        ⟨-, hrun⟩ | ⟨j, e', -, hrun⟩ | ⟨j, htype, hrun⟩ | ⟨-, -, -, hrun⟩ | ⟨-, -, -, hrun⟩ <;>
        rw [hrun] at h <;> cases h
      · exact absurd rfl hnoPortals
      · exact ⟨rfl, j, htype⟩
      · exact absurd rfl (hexhausted _)
    · rintro ⟨rfl, htype⟩
      exact readEntry_eq_unsupported_iff.mpr htype
  case walk =>
    rw [readAnswers_recorded]
    exact c.asked_readEntry owner dataKey s []

end Client

end Trustless.Portal
