import Mathlib.Data.List.Forall2
import Mathlib.Data.List.Infix
import Mathlib.Data.List.TakeDrop
import Trustless.Proofs.Portal.Requests

/-!
# What a walk accounts for

A walk sends one request to a front part of the portals and stops after the first answer that is
accepted. Each visit before is reported with what was answered, so that every portal of the list is
either reported, or the one that was accepted, or left over, and that in the order of the list.

A check is a function, so that what it was asked about shows in what the walk depends on: another
check leads to the same outcome exactly if it says the same about these answers.

* `AgreeOn`, `judge_eq_iff`: checks that judge the same answers alike.
* `FirstAt.fetch_eq_iff`, `fetch_eq_iff_of_none`: checks that lead to the same outcome.
* `Failure.Reports`, `reports_failures`: what a report keeps of a visit.
* `Visit.Logs`, `logs_failures`: the line that stands for a visit in the log.
* `WalkOutcome`, `fetch_outcome`: all of it at once.
-/

namespace Trustless.Portal

variable {α σ : Type} {t : Transport σ} {request : Request}
  {check check' : Response → Except String α} {portals : List String} {s : σ} {j : Nat} {v : Visit}
  {vs ws : List Visit} {response : Response} {output : α}

/-! ## What a check is asked -/

/-- Two checks agree about all answers whose status means success. -/
def AgreeOn (check check' : Response → Except String α) (vs : List Visit) : Prop :=
  ∀ v ∈ vs, ∀ r, v.answer = .ok r → r.isSuccess = true → check' r = check r

/-- **Checks judge an answer alike exactly if they agree about it**, or if there is nothing to check
about it. -/
theorem judge_eq_iff {answer : Except TransportError Response} :
    judge check' answer = judge check answer ↔
      ∀ r, answer = .ok r → r.isSuccess = true → check' r = check r := by
  cases answer with
  | error e => exact ⟨nofun, fun _ => rfl⟩
  | ok r =>
    unfold judge
    dsimp only
    constructor
    · rintro h _ ⟨⟩ hsuccess
      rw [if_pos hsuccess, if_pos hsuccess] at h
      cases hcheck' : check' r <;> cases hcheck : check r <;> rw [hcheck', hcheck] at h <;> cases h
      all_goals rfl
    · intro h
      by_cases hsuccess : r.isSuccess = true
      · rw [h r rfl hsuccess]
      · rw [if_neg hsuccess, if_neg hsuccess]

theorem agreeOn_iff :
    AgreeOn check check' vs ↔ ∀ v ∈ vs, judge check' v.answer = judge check v.answer :=
  forall₂_congr fun _ _ => judge_eq_iff.symm

theorem agreeOn_append :
    AgreeOn check check' (vs ++ ws) ↔ AgreeOn check check' vs ∧ AgreeOn check check' ws :=
  List.forall_mem_append

/-- Checks that agree let the same answers fail. -/
theorem AgreeOn.fails (hagree : AgreeOn check check' vs) (h : ∀ v ∈ vs, v.Fails check) :
    ∀ v ∈ vs, v.Fails check' := by
  intro v hv
  obtain ⟨cause, hcause⟩ := h v hv
  exact ⟨cause, (agreeOn_iff.mp hagree v hv).trans hcause⟩

/-- Checks that agree lead to the same reports. -/
theorem AgreeOn.failures_eq (hagree : AgreeOn check check' vs) :
    failures check' vs = failures check vs := by
  refine List.filterMap_congr fun v hv => ?_
  rw [Visit.failure?, Visit.failure?, agreeOn_iff.mp hagree v hv]

/-- The reports tell what was said about each answer, if all of them fail. -/
theorem agreeOn_of_failures_eq (h : ∀ v ∈ vs, v.Fails check) (h' : ∀ v ∈ vs, v.Fails check')
    (heq : failures check' vs = failures check vs) : AgreeOn check check' vs := by
  rw [agreeOn_iff]
  induction vs with
  | nil => exact nofun
  | cons v vs ih =>
    obtain ⟨⟨cause, hcause⟩, h⟩ := List.forall_mem_cons.mp h
    obtain ⟨⟨cause', hcause'⟩, h'⟩ := List.forall_mem_cons.mp h'
    rw [failures_cons_of_fails hcause, failures_cons_of_fails hcause'] at heq
    obtain ⟨hreport, hrest⟩ := List.cons.inj heq
    obtain rfl := (Failure.mk.inj hreport).2
    exact List.forall_mem_cons.mpr ⟨hcause'.trans hcause.symm, ih h h' hrest⟩

/-! ## Checks with one outcome -/

/-- The visits up to the first accepted answer, and the one with it. -/
theorem FirstAt.take_succ (h : FirstAt check vs j v response output) :
    vs.take (j + 1) = vs.take j ++ [v] := by
  rw [List.take_add_one, h.here]
  rfl

theorem FirstAt.lt_length (h : FirstAt check (t.visits request portals s) j v response output) :
    j < portals.length :=
  (List.getElem?_eq_some_iff.mp (Transport.portal_at h.here)).1

/-- If some answer is accepted, another check leads to the same outcome exactly if it agrees about
the answers up to there. -/
theorem FirstAt.fetch_eq_iff
    (h : FirstAt check (t.visits request portals s) j v response output) :
    fetch t request check' portals s = fetch t request check portals s ↔
      AgreeOn check check' ((t.visits request portals s).take (j + 1)) := by
  rw [h.take_succ, agreeOn_append]
  constructor
  · intro heq
    rw [fetch_of_firstAt h] at heq
    rcases firstAt_or_fails check' (t.visits request portals s) with
      ⟨j', v', response', output', h'⟩ | h'
    · rw [fetch_of_firstAt h'] at heq
      simp only [Prod.mk.injEq, Except.ok.injEq, Success.mk.injEq] at heq
      obtain ⟨⟨-, rfl, rfl, hfailures, -⟩, -⟩ := heq
      -- As many portals are reported, so that both walks end at one place.
      have hplaces := congrArg (fun fs => (List.map Failure.portal fs).length) hfailures
      rw [h.map_portal_failures, h'.map_portal_failures,
        List.length_take_of_le h.lt_length.le, List.length_take_of_le h'.lt_length.le] at hplaces
      subst hplaces
      obtain rfl : v' = v := Option.some.inj (h'.here.symm.trans h.here)
      refine ⟨agreeOn_of_failures_eq h.before h'.before hfailures, ?_⟩
      exact agreeOn_iff.mpr (List.forall_mem_singleton.mpr (h'.passes.trans h.passes.symm))
    · rw [fetch_of_none h'] at heq
      cases congrArg Prod.fst heq
  · rintro ⟨hbefore, hlast⟩
    have h' : FirstAt check' (t.visits request portals s) j v response output :=
      ⟨h.here, hbefore.fails h.before,
        (agreeOn_iff.mp hlast v List.mem_cons_self).trans h.passes⟩
    rw [fetch_of_firstAt h, fetch_of_firstAt h', hbefore.failures_eq]

/-- If no answer is accepted, another check leads to the same outcome exactly if it agrees about
all of them. -/
theorem fetch_eq_iff_of_none (h : ∀ v ∈ t.visits request portals s, v.Fails check) :
    fetch t request check' portals s = fetch t request check portals s ↔
      AgreeOn check check' (t.visits request portals s) := by
  constructor
  · intro heq
    rw [fetch_of_none h] at heq
    rcases firstAt_or_fails check' (t.visits request portals s) with
      ⟨j', v', response', output', h'⟩ | h'
    · rw [fetch_of_firstAt h'] at heq
      cases congrArg Prod.fst heq
    · rw [fetch_of_none h'] at heq
      exact agreeOn_of_failures_eq h h' (Except.error.inj (congrArg Prod.fst heq))
  · intro hagree
    rw [fetch_of_none h, fetch_of_none (hagree.fails h), hagree.failures_eq]

/-! ## What is reported -/

/-- A report of a visit names its portal and keeps the answer. There is no status and no answer
exactly if the portal gave none. -/
structure Failure.Reports (f : Failure) (v : Visit) : Prop where
  portal : f.portal = v.portal
  answer : (∃ e, v.answer = .error e) ∧ f.status? = none ∧ f.response? = none ∨
    ∃ r, v.answer = .ok r ∧ f.status? = some r.status ∧ f.response? = some r

/-- A report keeps the visit it is of. -/
theorem reports_of_judge {cause : Cause} (h : judge check v.answer = .error cause) :
    Failure.Reports ⟨v.portal, cause⟩ v := by
  refine ⟨rfl, ?_⟩
  rw [Failure.status?, response_of_judge h, Visit.response?]
  cases v.answer with
  | error e => exact .inl ⟨⟨e, rfl⟩, rfl, rfl⟩
  | ok r => exact .inr ⟨r, rfl, rfl, rfl⟩

/-- **If no answer is accepted, each of them is reported at its place.** -/
theorem reports_failures (h : ∀ v ∈ vs, v.Fails check) :
    List.Forall₂ Failure.Reports (failures check vs) vs := by
  induction vs with
  | nil => exact .nil
  | cons v vs ih =>
    obtain ⟨⟨cause, hcause⟩, h⟩ := List.forall_mem_cons.mp h
    rw [failures_cons_of_fails hcause]
    exact .cons (reports_of_judge hcause) (ih h)

/-! ## What is logged -/

/-- The line of a log that stands for a visit, by what a check says about its answer. -/
inductive Visit.Logs (check : Response → Except String α) : Visit → String → Prop
  | request {portal : String} {e : TransportError} :
      Logs check ⟨portal, .error e⟩ s!"{portal}: request failed: {e.message}"
  | status {portal : String} {r : Response} : r.isSuccess = false →
      Logs check ⟨portal, .ok r⟩ s!"{portal}: unexpected status {r.status}"
  | rejected {portal : String} {r : Response} {reason : String} : r.isSuccess = true →
      check r = .error reason → Logs check ⟨portal, .ok r⟩ s!"{portal}: response rejected: {reason}"
  | verified {portal : String} {r : Response} {output : α} : r.isSuccess = true →
      check r = .ok output → Logs check ⟨portal, .ok r⟩ s!"{portal}: response verified"

/-- The line of a failure stands for the visit that it reports. -/
theorem logs_of_judge {cause : Cause} (h : judge check v.answer = .error cause) :
    v.Logs check (Failure.logLine ⟨v.portal, cause⟩) := by
  obtain ⟨portal, answer⟩ := v
  cases answer with
  | error e =>
    cases h
    exact .request
  | ok r =>
    unfold judge at h
    dsimp only at h
    split at h
    · next hsuccess =>
      cases hcheck : check r with
      | ok output =>
        rw [hcheck] at h
        cases h
      | error reason =>
        rw [hcheck] at h
        cases h
        exact .rejected hsuccess hcheck
    · next hstatus =>
      cases h
      exact .status (Bool.eq_false_iff.mpr hstatus)

/-- **If no answer is accepted, there is a line for each of them in its place.** -/
theorem logs_failures (h : ∀ v ∈ vs, v.Fails check) :
    List.Forall₂ (Visit.Logs check) vs ((failures check vs).map Failure.logLine) := by
  induction vs with
  | nil => exact .nil
  | cons v vs ih =>
    obtain ⟨⟨cause, hcause⟩, h⟩ := List.forall_mem_cons.mp h
    rw [failures_cons_of_fails hcause]
    exact .cons (logs_of_judge hcause) (ih h)

/-! ## All of it -/

/-- An answer after which a walk goes on: the check refuses it if its status means success. -/
def Visit.GoesOn (v : Visit) (check : Response → Except String α) : Prop :=
  ∀ r, v.answer = .ok r → r.isSuccess = true → ∃ reason, check r = .error reason

theorem Visit.Fails.goesOn (h : v.Fails check) : v.GoesOn check := by
  intro r hr hsuccess
  rcases Visit.fails_iff.mp h with ⟨e, he⟩ | ⟨r', hr', hfails⟩
  · cases hr.symm.trans he
  · cases hr.symm.trans hr'
    rcases hfails with hstatus | ⟨-, hreason⟩
    · cases hsuccess.symm.trans hstatus
    · exact hreason

/-- The visits to the first portals are the first visits. -/
theorem Transport.visits_take (t : Transport σ) (request : Request) (portals : List String) (s : σ)
    (n : Nat) : t.visits request (portals.take n) s = (t.visits request portals s).take n := by
  induction n generalizing portals s with
  | zero => rw [List.take_zero, List.take_zero, visits]
  | succ n ih =>
    cases portals with
    | nil => rfl
    | cons portal rest => exact congrArg (_ :: ·) (ih rest _)

/-- What a walk along some portals comes to, by the visits it made. -/
structure WalkOutcome (check : Response → Except String α) (portals : List String)
    (made : List Visit) (result : Except (List Failure) (Success α)) : Prop where
  /-- The walk goes on after all visits but the last. -/
  goesOn : ∀ v ∈ made.dropLast, v.GoesOn check
  /-- On success the answer of the last visit is accepted, the visits before are reported, the portals
  after it are left over, and the log has a line for every visit in its place. -/
  accepted : ∀ success, result = .ok success →
    made.getLast? = some ⟨success.portal, .ok success.response⟩ ∧
    success.response.isSuccess = true ∧ check success.response = .ok success.output ∧
    List.Forall₂ Failure.Reports success.failures made.dropLast ∧
    success.failures.map Failure.portal ++ [success.portal] ++ success.remaining = portals ∧
    success.log.length = success.failures.length + 1 ∧
    List.Forall₂ (Visit.Logs check) made success.log
  /-- Otherwise all portals were visited, no answer is accepted, all visits are reported, and the
  failures have a line for every visit in its place. -/
  exhausted : ∀ fs, result = .error fs →
    made.length = portals.length ∧ (∀ v ∈ made, v.GoesOn check) ∧
    List.Forall₂ Failure.Reports fs made ∧ fs.map Failure.portal = portals ∧
    (fs.map Failure.logLine).length = portals.length ∧
    List.Forall₂ (Visit.Logs check) made (fs.map Failure.logLine)

/-- The outcome of a walk that ends with an accepted answer. -/
theorem FirstAt.walkOutcome
    (h : FirstAt check (t.visits request portals s) j v response output) :
    WalkOutcome check portals ((t.visits request portals s).take (j + 1))
      (fetch t request check portals s).1 := by
  obtain ⟨hanswer, hsuccess, hcheck⟩ := Visit.passes_iff.mp h.passes
  obtain ⟨hplace, hportal⟩ := List.getElem?_eq_some_iff.mp (Transport.portal_at h.here)
  rw [h.take_succ, fetch_of_firstAt h]
  constructor
  case goesOn =>
    rw [List.dropLast_concat]
    exact fun u hu => (h.before u hu).goesOn
  case accepted =>
    rintro _ ⟨⟩
    refine ⟨?_, hsuccess, hcheck, ?_, ?_, ?_, ?_⟩
    · rw [List.getLast?_concat, ← hanswer]
    · rw [List.dropLast_concat]
      exact reports_failures h.before
    · dsimp only
      rw [h.map_portal_failures, ← hportal, List.take_concat_get', List.take_append_drop]
    · rw [Success.log, List.length_append, List.length_map]
      rfl
    · have hlast : v.Logs check s!"{v.portal}: response verified" := by
        obtain ⟨portal, answer⟩ := v
        obtain rfl : answer = .ok response := hanswer
        exact .verified hsuccess hcheck
      exact List.rel_append (logs_failures h.before) (.cons hlast .nil)
  case exhausted => exact nofun

/-- The outcome of a walk along portals that all fail. -/
theorem walkOutcome_of_none (h : ∀ v ∈ t.visits request portals s, v.Fails check) :
    WalkOutcome check portals (t.visits request portals s) (fetch t request check portals s).1 := by
  have hgoesOn : ∀ v ∈ t.visits request portals s, v.GoesOn check := fun v hv => (h v hv).goesOn
  have hportals : (failures check (t.visits request portals s)).map Failure.portal = portals := by
    rw [map_portal_failures h, t.map_portal_visits]
  rw [fetch_of_none h]
  constructor
  case goesOn => exact fun v hv => hgoesOn v (List.mem_of_mem_dropLast hv)
  case accepted => exact nofun
  case exhausted =>
    rintro _ ⟨⟩
    refine ⟨?_, hgoesOn, reports_failures h, hportals, ?_, logs_failures h⟩
    · rw [← List.length_map Visit.portal, t.map_portal_visits]
    · rw [List.length_map, ← List.length_map Failure.portal, hportals]

/-- **A walk accounts for every portal once and in order**, for every transport, request and check.
It sends the request to a front part of the portals, it reports what they answered up to the first
answer that is accepted, and it asks the check about the answers whose status means success and
about no others. -/
theorem fetch_outcome (t : Transport σ) (request : Request) (check : Response → Except String α)
    (portals : List String) (s : σ) :
    ∃ n ≤ portals.length,
      (∀ log, fetch t.recorded request check portals (s, log) =
        ((fetch t request check portals s).1, (fetch t request check portals s).2,
          log ++ sentTo request (portals.take n))) ∧
      WalkOutcome check portals (t.visits request (portals.take n) s)
        (fetch t request check portals s).1 ∧
      ∀ check', fetch t request check' portals s = fetch t request check portals s ↔
        AgreeOn check check' (t.visits request (portals.take n) s) := by
  rcases firstAt_or_fails check (t.visits request portals s) with
    ⟨j, v, response, output, hfirst⟩ | hfails
  · refine ⟨j + 1, hfirst.lt_length, fun log => ?_, ?_, fun check' => ?_⟩
    · have hrecorded := hfirst
      rw [← t.visits_recorded log] at hrecorded
      rw [fetch_of_firstAt hrecorded, fetch_of_firstAt hfirst, t.visits_recorded, t.after_recorded]
    · rw [t.visits_take]
      exact hfirst.walkOutcome
    · rw [t.visits_take]
      exact hfirst.fetch_eq_iff
  · refine ⟨portals.length, Nat.le_refl _, fun log => ?_, ?_, fun check' => ?_⟩
    · have hrecorded := hfails
      rw [← t.visits_recorded log] at hrecorded
      rw [fetch_of_none hrecorded, fetch_of_none hfails, t.visits_recorded, t.after_recorded,
        List.take_length]
    · rw [List.take_length]
      exact walkOutcome_of_none hfails
    · rw [List.take_length]
      exact fetch_eq_iff_of_none hfails

end Trustless.Portal
