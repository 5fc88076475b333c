import Trustless.Portal.Client

/-!
# What a walk along the portals comes to

What every portal would answer if all were asked in order is a list of visits. A walk makes the
first of these visits, up to the first answer that is accepted, and it depends on nothing else.

* `Transport.visits`, `Transport.after`: all answers in order, and the state that is left.
* `Visit.Fails`, `failures`: answers that are not accepted, and the reports of them.
* `FirstAt`: the place of the first accepted answer; `exists_firstAt` finds it.
* `fetch_of_firstAt`, `fetch_of_none`: the outcome of a walk; `Client.ask_of_firstAt` for a client.
-/

namespace Trustless.Portal

variable {α σ : Type} {t : Transport σ} {request : Request} {check : Response → Except String α}
  {portals : List String} {s : σ} {i j : Nat}

/-- A portal with the answer it gives. -/
structure Visit where
  portal : String
  answer : Except TransportError Response

namespace Visit

/-- The answer is accepted. -/
def Passes (v : Visit) (check : Response → Except String α) (response : Response) (output : α) :
    Prop :=
  judge check v.answer = .ok (response, output)

/-- The answer is not accepted. -/
def Fails (v : Visit) (check : Response → Except String α) : Prop :=
  ∃ cause, judge check v.answer = .error cause

/-- The report of an answer that is not accepted. -/
def failure? (v : Visit) (check : Response → Except String α) : Option Failure :=
  match judge check v.answer with
  | .ok _ => none
  | .error cause => some ⟨v.portal, cause⟩

end Visit

variable {v : Visit} {vs : List Visit} {response : Response} {output : α}

/-- The reports of all answers that are not accepted, in order. -/
def failures (check : Response → Except String α) (vs : List Visit) : List Failure :=
  vs.filterMap fun v => v.failure? check

namespace Transport

/-- What the portals answer to a request if all of them are asked in order. -/
def visits (t : Transport σ) (request : Request) : List String → σ → List Visit
  | [], _ => []
  | portal :: rest, s =>
    ⟨portal, (t.send portal request s).1⟩ :: t.visits request rest (t.send portal request s).2

/-- The state after all portals were asked in order. -/
def after (t : Transport σ) (request : Request) : List String → σ → σ
  | [], s => s
  | portal :: rest, s => t.after request rest (t.send portal request s).2

theorem map_portal_visits (t : Transport σ) (request : Request) (portals : List String) (s : σ) :
    (t.visits request portals s).map Visit.portal = portals := by
  induction portals generalizing s with
  | nil => rfl
  | cons portal rest ih => exact congrArg (portal :: ·) (ih _)

/-- A transport over which every portal always gives the same answer. -/
def steady (answer : String → Except TransportError Response) : Transport σ where
  send portal _ s := (answer portal, s)

theorem visits_steady (answer : String → Except TransportError Response) (request : Request)
    (portals : List String) (s : σ) :
    (steady answer).visits request portals s = portals.map fun p => ⟨p, answer p⟩ := by
  induction portals with
  | nil => rfl
  | cons portal rest ih => exact congrArg (_ :: ·) ih

end Transport

/-- The first accepted answer is the one at place `j`. -/
structure FirstAt (check : Response → Except String α) (vs : List Visit) (j : Nat) (v : Visit)
    (response : Response) (output : α) : Prop where
  here : vs[j]? = some v
  before : ∀ u ∈ vs.take j, u.Fails check
  passes : v.Passes check response output

/-! ## Reports -/

theorem Visit.passes_or_fails (v : Visit) (check : Response → Except String α) :
    (∃ response output, v.Passes check response output) ∨ v.Fails check := by
  unfold Passes Fails
  cases judge check v.answer with
  | ok r => exact .inl ⟨r.1, r.2, rfl⟩
  | error cause => exact .inr ⟨cause, rfl⟩

theorem Visit.passes_iff : v.Passes check response output ↔
    v.answer = .ok response ∧ response.isSuccess = true ∧ check response = .ok output := by
  unfold Passes
  cases v.answer with
  | error e => exact ⟨nofun, nofun⟩
  | ok r =>
    rw [Except.ok.injEq]
    unfold judge
    constructor
    · intro h
      dsimp only at h
      split at h
      · split at h
        · cases h
          exact ⟨rfl, ‹_›, ‹_›⟩
        · cases h
      · cases h
    · rintro ⟨rfl, hsuccess, hcheck⟩
      dsimp only
      rw [if_pos hsuccess, hcheck]

theorem failures_cons_of_fails {cause : Cause} (h : judge check v.answer = .error cause)
    (vs : List Visit) : failures check (v :: vs) = ⟨v.portal, cause⟩ :: failures check vs := by
  have hv : v.failure? check = some ⟨v.portal, cause⟩ := by
    unfold Visit.failure?
    rw [h]
  exact List.filterMap_cons_some hv

/-- If no answer is accepted, there is a report of every portal. -/
theorem map_portal_failures (h : ∀ v ∈ vs, v.Fails check) :
    (failures check vs).map Failure.portal = vs.map Visit.portal := by
  induction vs with
  | nil => rfl
  | cons v vs ih =>
    obtain ⟨cause, hcause⟩ := h v (List.mem_cons_self ..)
    rw [failures_cons_of_fails hcause, List.map_cons, List.map_cons,
      ih fun u hu => h u (List.mem_cons_of_mem _ hu)]

/-! ## The first accepted answer -/

theorem FirstAt.zero (h : v.Passes check response output) (vs : List Visit) :
    FirstAt check (v :: vs) 0 v response output :=
  ⟨rfl, nofun, h⟩

theorem FirstAt.succ {w : Visit} (hw : w.Fails check)
    (h : FirstAt check vs j v response output) :
    FirstAt check (w :: vs) (j + 1) v response output :=
  ⟨h.here, List.forall_mem_cons.mpr ⟨hw, h.before⟩, h.passes⟩

/-- **The first accepted answer stands where an accepted answer stands, or before it.** -/
theorem exists_firstAt (h : vs[i]? = some v) (hv : v.Passes check response output) :
    ∃ j ≤ i, ∃ u response' output', FirstAt check vs j u response' output' := by
  induction vs generalizing i with
  | nil => cases h
  | cons w vs ih =>
    rcases w.passes_or_fails check with ⟨response', output', hw⟩ | hw
    · exact ⟨0, Nat.zero_le i, w, response', output', .zero hw vs⟩
    · cases i with
      | zero =>
        obtain ⟨cause, hcause⟩ := hw
        cases h
        cases hcause.symm.trans hv
      | succ i =>
        obtain ⟨j, hle, u, response', output', hfirst⟩ := ih h
        exact ⟨j + 1, Nat.succ_le_succ hle, u, response', output', hfirst.succ hw⟩

/-! ## The walk -/

/-- The places of a visit and of its portal are the same. -/
theorem Transport.portal_at (h : (t.visits request portals s)[j]? = some v) :
    portals[j]? = some v.portal := by
  rw [← t.map_portal_visits request portals s, List.getElem?_map, h]
  rfl

/-- The portals before the first accepted answer are reported in order. -/
theorem FirstAt.map_portal_failures
    (h : FirstAt check (t.visits request portals s) j v response output) :
    (failures check ((t.visits request portals s).take j)).map Failure.portal
      = portals.take j := by
  rw [Portal.map_portal_failures h.before, List.map_take, t.map_portal_visits]

/-- **The first accepted answer ends the walk.** The portals before it are reported, and the portals
after it are not asked. -/
theorem fetch_of_firstAt (h : FirstAt check (t.visits request portals s) j v response output) :
    fetch t request check portals s =
      (.ok ⟨v.portal, response, output, failures check ((t.visits request portals s).take j),
        portals.drop (j + 1)⟩, t.after request (portals.take (j + 1)) s) := by
  induction portals generalizing s j with
  | nil => cases h.here
  | cons portal rest ih =>
    obtain ⟨hplace, hbefore, hv⟩ := h
    cases j with
    | zero =>
      cases hplace
      exact fetch_of_accepted hv rest
    | succ j =>
      obtain ⟨hhead, hbefore⟩ := List.forall_mem_cons.mp hbefore
      obtain ⟨cause, hcause⟩ := hhead
      rw [fetch_of_failed hcause, ih ⟨hplace, hbefore, hv⟩, Transport.visits, List.take_succ_cons,
        failures_cons_of_fails hcause]
      rfl

/-- **If no answer is accepted, all portals were asked and are reported.** -/
theorem fetch_of_none (h : ∀ v ∈ t.visits request portals s, v.Fails check) :
    fetch t request check portals s =
      (.error (failures check (t.visits request portals s)), t.after request portals s) := by
  induction portals generalizing s with
  | nil => rfl
  | cons portal rest ih =>
    obtain ⟨cause, hcause⟩ := h _ (List.mem_cons_self ..)
    rw [fetch_of_failed hcause, ih fun v hv => h v (List.mem_cons_of_mem _ hv), Transport.visits,
      failures_cons_of_fails hcause]
    rfl

/-! ## Sessions -/

/-- A session that goes on after another one goes on from its state, unless that one failed. -/
theorem Session.run_bind {β : Type} (x : Session σ α) (f : α → Session σ β) (s : σ) :
    (x >>= f).run s =
      match x.run s with
      | (.ok a, s) => (f a).run s
      | (.error e, s) => (.error e, s) := by
  show ExceptT.bindCont f (x.run s).1 (x.run s).2 = _
  obtain ⟨r, s'⟩ := x.run s
  cases r <;> rfl

namespace Client

variable {c : Client σ}

theorem ask_eq_fetch (h : c.config.portals ≠ []) (request : Request)
    (check : Response → Except String α) (s : σ) :
    (c.ask request check).run s =
      ((fetch c.transport request check c.config.portals s).1.mapError .exhausted,
        (fetch c.transport request check c.config.portals s).2) := by
  unfold ask
  rw [if_neg (by rwa [List.isEmpty_iff])]
  unfold ExceptT.run
  dsimp only
  generalize fetch c.transport request check c.config.portals s = r
  obtain ⟨r, s'⟩ := r
  cases r <;> rfl

/-- A client takes the first accepted answer. -/
theorem ask_of_firstAt
    (h : FirstAt check (c.transport.visits request c.config.portals s) j v response output) :
    (c.ask request check).run s =
      (.ok ⟨v.portal, response, output,
        failures check ((c.transport.visits request c.config.portals s).take j),
        c.config.portals.drop (j + 1)⟩,
        c.transport.after request (c.config.portals.take (j + 1)) s) := by
  have hportals : c.config.portals ≠ [] := by
    intro hnil
    have hplace := Transport.portal_at h.here
    rw [hnil] at hplace
    cases hplace
  rw [ask_eq_fetch hportals, fetch_of_firstAt h]
  rfl

end Client

end Trustless.Portal
