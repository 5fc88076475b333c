import Trustless.Proofs.Portal.Fetch

/-!
# Which requests are made

A transport that keeps a record of the requests answers like the one below it, so that a run can be
read off the record. Whatever is asked of the portals, it is one request, sent to the portals in
their order, up to the first answer that is accepted.

* `SentToFront`: one request to a front part of the portals.
* `Transport.visits_recorded`, `Transport.after_recorded`: the answers and the record of all portals.
* `Client.ask_of_none`, `Client.ask_cases`: what asking the portals comes to.
* `Client.recorded`: the same client with a record.
* `Session.Records`: what a session adds to the record, `Client.records_ask` for one request.
* `map_response_failures`, `countStatus_failures`: what is reported of portals that all failed.
-/

namespace Trustless.Portal

variable {α σ : Type} {request : Request} {check : Response → Except String α}
  {portals : List String} {vs : List Visit}

/-- The requests that are made if portals are all sent the same one. -/
def sentTo (request : Request) (portals : List String) : List Asked :=
  portals.map fun portal => ⟨portal, request⟩

theorem map_portal_sentTo (request : Request) (portals : List String) :
    (sentTo request portals).map Asked.portal = portals := by
  rw [sentTo, List.map_map]
  exact List.map_id portals

/-- One request was sent to a front part of the portals, and to the first of them at least if there
is any. -/
def SentToFront (request : Request) (portals : List String) (asked : List Asked) : Prop :=
  ∃ n, (portals ≠ [] → 0 < n) ∧ asked = sentTo request (portals.take n)

theorem sentToFront_all (request : Request) (portals : List String) :
    SentToFront request portals (sentTo request portals) :=
  ⟨portals.length, List.length_pos_iff.mpr, by rw [List.take_length]⟩

theorem sentToFront_take_succ (request : Request) (portals : List String) (j : Nat) :
    SentToFront request portals (sentTo request (portals.take (j + 1))) :=
  ⟨j + 1, fun _ => Nat.succ_pos j, rfl⟩

namespace Transport

variable (t : Transport σ) (log : List Asked)

/-- **A record changes no answer.** -/
theorem visits_recorded (request : Request) (portals : List String) (s : σ) :
    t.recorded.visits request portals (s, log) = t.visits request portals s := by
  induction portals generalizing s log with
  | nil => rfl
  | cons portal rest ih => exact congrArg (_ :: ·) (ih _ _)

/-- **The record holds the request to each portal in order.** -/
theorem after_recorded (request : Request) (portals : List String) (s : σ) :
    t.recorded.after request portals (s, log)
      = (t.after request portals s, log ++ sentTo request portals) := by
  induction portals generalizing s log with
  | nil => rw [sentTo, List.map_nil, List.append_nil]; rfl
  | cons portal rest ih =>
    rw [after, recorded_send, ih, List.append_assoc]
    rfl

end Transport

/-! ## Reports of portals that all failed -/

namespace Visit

/-- The answer, if there was one. -/
def response? (v : Visit) : Option Response :=
  v.answer.toOption

/-- The status of the answer, if there was one. -/
def status? (v : Visit) : Option Nat :=
  v.response?.map Response.status

end Visit

/-- What it takes that an answer is not accepted. -/
theorem Visit.fails_iff {v : Visit} : v.Fails check ↔ (∃ e, v.answer = .error e) ∨
    ∃ r, v.answer = .ok r ∧
      (r.isSuccess = false ∨ r.isSuccess = true ∧ ∃ reason, check r = .error reason) := by
  unfold Visit.Fails
  cases v.answer with
  | error e => exact ⟨fun _ => .inl ⟨e, rfl⟩, fun _ => ⟨_, rfl⟩⟩
  | ok r =>
    unfold judge
    dsimp only
    cases hsuccess : r.isSuccess with
    | false =>
      rw [if_neg Bool.false_ne_true]
      exact ⟨fun _ => .inr ⟨r, rfl, .inl hsuccess⟩, fun _ => ⟨_, rfl⟩⟩
    | true =>
      rw [if_pos rfl]
      cases hcheck : check r with
      | ok output =>
        refine ⟨nofun, ?_⟩
        rintro (⟨e, ⟨⟩⟩ | ⟨_, ⟨⟩, hfails⟩)
        rw [hsuccess, hcheck] at hfails
        rcases hfails with hfails | ⟨-, reason, hreason⟩
        · cases hfails
        · cases hreason
      | error reason =>
        exact ⟨fun _ => .inr ⟨r, rfl, .inr ⟨hsuccess, reason, hcheck⟩⟩, fun _ => ⟨_, rfl⟩⟩

/-- The report of an answer keeps it. -/
theorem response_of_judge {v : Visit} {cause : Cause} (h : judge check v.answer = .error cause) :
    Failure.response? ⟨v.portal, cause⟩ = v.response? := by
  unfold Visit.response?
  cases hanswer : v.answer with
  | error e =>
    rw [hanswer] at h
    cases h
    rfl
  | ok r =>
    rw [hanswer] at h
    unfold judge at h
    dsimp only at h
    split at h
    · split at h
      · cases h
      · cases h
        rfl
    · cases h
      rfl

/-- If no answer is accepted, the reports keep all of them. -/
theorem map_response_failures (h : ∀ v ∈ vs, v.Fails check) :
    (failures check vs).map Failure.response? = vs.map Visit.response? := by
  induction vs with
  | nil => rfl
  | cons v vs ih =>
    obtain ⟨cause, hcause⟩ := h v List.mem_cons_self
    rw [failures_cons_of_fails hcause, List.map_cons, List.map_cons, response_of_judge hcause,
      ih fun u hu => h u (List.mem_cons_of_mem _ hu)]

/-- How many portals answered with a status. -/
def answersWith (status : Nat) (vs : List Visit) : Nat :=
  vs.countP fun v => v.status? == some status

/-- If no answer is accepted, the reports of a status are the answers with it. -/
theorem countStatus_failures (h : ∀ v ∈ vs, v.Fails check) (status : Nat) :
    Failure.countStatus status (failures check vs) = answersWith status vs := by
  have hcount (p : Option Response → Bool) : (failures check vs).countP (p ∘ Failure.response?)
      = vs.countP (p ∘ Visit.response?) := by
    rw [← List.countP_map, map_response_failures h, List.countP_map]
  exact hcount fun r => r.map Response.status == some status

/-- Some answer is the first one that is accepted, or none is. -/
theorem firstAt_or_fails (check : Response → Except String α) (vs : List Visit) :
    (∃ j v response output, FirstAt check vs j v response output) ∨ ∀ v ∈ vs, v.Fails check := by
  induction vs with
  | nil => exact .inr nofun
  | cons v vs ih =>
    rcases v.passes_or_fails check with ⟨response, output, hv⟩ | hv
    · exact .inl ⟨0, v, response, output, .zero hv vs⟩
    · rcases ih with ⟨j, u, response, output, hfirst⟩ | hvs
      · exact .inl ⟨j + 1, u, response, output, hfirst.succ hv⟩
      · exact .inr (List.forall_mem_cons.mpr ⟨hv, hvs⟩)

namespace Client

variable {c : Client σ} {s : σ}

/-! ## Asking the portals -/

theorem ask_of_nil (h : c.config.portals = []) (request : Request)
    (check : Response → Except String α) (s : σ) :
    (c.ask request check).run s = (.error .noPortals, s) := by
  unfold ask
  rw [if_pos (List.isEmpty_iff.mpr h)]
  rfl

/-- If no answer is accepted, all portals were asked and are reported. -/
theorem ask_of_none (hportals : c.config.portals ≠ [])
    (h : ∀ v ∈ c.transport.visits request c.config.portals s, v.Fails check) :
    (c.ask request check).run s =
      (.error (.exhausted (failures check (c.transport.visits request c.config.portals s))),
        c.transport.after request c.config.portals s) := by
  rw [ask_eq_fetch hportals, fetch_of_none h]
  rfl

/-- **What asking the portals comes to**: there are none, some answer is accepted first, or all of
them fail. -/
theorem ask_cases (c : Client σ) (request : Request) (check : Response → Except String α) (s : σ) :
    (c.config.portals = [] ∧ (c.ask request check).run s = (.error .noPortals, s)) ∨
    (∃ j v response output,
      FirstAt check (c.transport.visits request c.config.portals s) j v response output ∧
      (c.ask request check).run s =
        (.ok ⟨v.portal, response, output,
          failures check ((c.transport.visits request c.config.portals s).take j),
          c.config.portals.drop (j + 1)⟩,
          c.transport.after request (c.config.portals.take (j + 1)) s)) ∨
    (c.config.portals ≠ [] ∧
      (∀ v ∈ c.transport.visits request c.config.portals s, v.Fails check) ∧
      (c.ask request check).run s =
        (.error (.exhausted (failures check (c.transport.visits request c.config.portals s))),
          c.transport.after request c.config.portals s)) := by
  by_cases hportals : c.config.portals = []
  · exact .inl ⟨hportals, ask_of_nil hportals request check s⟩
  · rcases firstAt_or_fails check (c.transport.visits request c.config.portals s) with
      ⟨j, v, response, output, hfirst⟩ | hfails
    · exact .inr (.inl ⟨j, v, response, output, hfirst, ask_of_firstAt hfirst⟩)
    · exact .inr (.inr ⟨hportals, hfails, ask_of_none hportals hfails⟩)

end Client

/-! ## With a record -/

/-- A session with a record does from a state what another one does without, and adds some requests
to whatever stands in the record. -/
def Session.Records (x : Session (σ × List Asked) α) (y : Session σ α) (s : σ)
    (asked : List Asked) : Prop :=
  ∀ log, x.run (s, log) = ((y.run s).1, (y.run s).2, log ++ asked)

namespace Session

variable {β : Type} {x : Session (σ × List Asked) α} {y : Session σ α}
  {f : α → Session (σ × List Asked) β} {g : α → Session σ β} {s s' : σ} {asked more : List Asked}
  {a : α} {e : PortalError}

theorem records_pure (a : α) (s : σ) : Records (pure a) (pure a) s [] := by
  intro log
  rw [List.append_nil]
  rfl

/-- A session that fails records nothing more. -/
theorem Records.bind_error (h : x.Records y s asked) (hy : y.run s = (.error e, s')) :
    Records (x >>= f) (y >>= g) s asked := by
  intro log
  rw [run_bind, run_bind, h, hy]

/-- Sessions record one after the other. -/
theorem Records.bind_ok (h : x.Records y s asked) (hy : y.run s = (.ok a, s'))
    (hrest : (f a).Records (g a) s' more) : Records (x >>= f) (y >>= g) s (asked ++ more) := by
  intro log
  rw [run_bind, run_bind, h, hy]
  dsimp only
  rw [hrest, List.append_assoc]

/-- What a session makes of its result is not recorded. -/
theorem Records.bind_pure {f : α → β} (h : x.Records y s asked) :
    Records (x >>= fun a => pure (f a)) (y >>= fun a => pure (f a)) s asked := by
  rcases hy : y.run s with ⟨e | a, s'⟩
  · exact h.bind_error hy
  · rw [← List.append_nil asked]
    exact h.bind_ok hy (records_pure (f a) s')

end Session

namespace Client

variable {c : Client σ} {s : σ}

/-- The same client with a record of all requests. -/
def recorded (c : Client σ) : Client (σ × List Asked) :=
  ⟨c.transport.recorded, c.config⟩

/-- **One request is sent to a front part of the portals.** -/
theorem records_ask (c : Client σ) (request : Request) (check : Response → Except String α)
    (s : σ) : ∃ asked, SentToFront request c.config.portals asked ∧
      Session.Records (c.recorded.ask request check) (c.ask request check) s asked := by
  rcases c.ask_cases request check s with
    ⟨hnil, hrun⟩ | ⟨j, v, response, output, hfirst, hrun⟩ | ⟨hportals, hfails, hrun⟩
  · refine ⟨_, sentToFront_all request _, fun log => ?_⟩
    rw [hrun, ask_of_nil (c := c.recorded) hnil, hnil, sentTo, List.map_nil, List.append_nil]
  · refine ⟨_, sentToFront_take_succ request _ j, fun log => ?_⟩
    rw [← c.transport.visits_recorded log] at hfirst
    rw [hrun, ask_of_firstAt (c := c.recorded) hfirst]
    simp only [recorded, Transport.visits_recorded, Transport.after_recorded]
  · refine ⟨_, sentToFront_all request _, fun log => ?_⟩
    rw [← c.transport.visits_recorded log] at hfails
    rw [hrun, ask_of_none (c := c.recorded) hportals hfails]
    simp only [recorded, Transport.visits_recorded, Transport.after_recorded]

end Client

end Trustless.Portal
