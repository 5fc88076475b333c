import Trustless.Portal.Transport

/-!
# Asking one portal after the other

Portals are not trusted, so an answer that fails is not the end of a request. The portals are asked one
at a time, in order, until an answer passes. An answer passes if its status means success and a check of
its content accepts it; what the check makes of it may still be a failure. A portal that stands in the
list twice is asked twice. Every portal that failed is reported with what it did: three portals that do
not have a file look different from three that are broken.

* `judge`: what becomes of one answer.
* `fetch`: the walk along the portals, with `fetch_of_accepted` and `fetch_of_failed` for its first
  step.
* `Failure.logLine`, `Success.log`: the walk as lines of a log.
-/

namespace Trustless.Portal

/-- What was wrong with a portal. -/
inductive Cause
  /-- It gave no answer. -/
  | request (error : TransportError)
  /-- The status of its answer does not mean success. -/
  | status (response : Response)
  /-- The content of its answer was not accepted. -/
  | rejected (response : Response) (reason : String)
deriving DecidableEq

/-- A portal that gave no acceptable answer. -/
structure Failure where
  portal : String
  cause : Cause
deriving DecidableEq

namespace Failure

/-- What is told about the failure. -/
def message (f : Failure) : String :=
  match f.cause with
  | .request error => error.message
  | .status response => s!"unexpected status {response.status}"
  | .rejected _ reason => reason

/-- The answer, if there was one. -/
def response? (f : Failure) : Option Response :=
  match f.cause with
  | .request _ => none
  | .status response | .rejected response _ => some response

/-- The status of the answer, if there was one. -/
def status? (f : Failure) : Option Nat :=
  f.response?.map Response.status

/-- The failure as a line of a log. -/
def logLine (f : Failure) : String :=
  match f.cause with
  | .request error => s!"{f.portal}: request failed: {error.message}"
  | .status response => s!"{f.portal}: unexpected status {response.status}"
  | .rejected _ reason => s!"{f.portal}: response rejected: {reason}"

/-- How many portals answered with a status. -/
def countStatus (status : Nat) (failures : List Failure) : Nat :=
  failures.countP fun f => f.status? == some status

end Failure

/-- An answer that was accepted. -/
structure Success (α : Type) where
  portal : String
  response : Response
  /-- What the check made of the answer. -/
  output : α
  /-- The portals that failed before, in order. -/
  failures : List Failure
  /-- The portals that were not asked. -/
  remaining : List String

/-- The walk as lines of a log. -/
def Success.log {α : Type} (s : Success α) : List String :=
  s.failures.map Failure.logLine ++ [s!"{s.portal}: response verified"]

/-- A success with one more portal that failed before all others. -/
def Success.after {α : Type} (success : Success α) (failure : Failure) : Success α :=
  { success with failures := failure :: success.failures }

section Walk

variable {α σ : Type}

/-- What becomes of one answer under a check of content. -/
def judge (check : Response → Except String α) :
    Except TransportError Response → Except Cause (Response × α)
  | .error error => .error (.request error)
  | .ok response =>
    if response.isSuccess then
      match check response with
      | .ok output => .ok (response, output)
      | .error reason => .error (.rejected response reason)
    else .error (.status response)

/-- Asks the portals in order until the answer of one is accepted. If none is, the failures have a
member for each portal. -/
def fetch (t : Transport σ) (request : Request) (check : Response → Except String α) :
    List String → σ → Except (List Failure) (Success α) × σ
  | [], s => (.error [], s)
  | portal :: rest, s =>
    let (answer, s) := t.send portal request s
    match judge check answer with
    | .ok (response, output) => (.ok ⟨portal, response, output, [], rest⟩, s)
    | .error cause =>
      match fetch t request check rest s with
      | (.ok success, s) => (.ok (success.after ⟨portal, cause⟩), s)
      | (.error failures, s) => (.error (⟨portal, cause⟩ :: failures), s)

theorem fetch_nil (t : Transport σ) (request : Request) (check : Response → Except String α)
    (s : σ) : fetch t request check [] s = (.error [], s) :=
  rfl

/-- If the first portal's answer is accepted, no other portal is asked. -/
theorem fetch_of_accepted {t : Transport σ} {request : Request}
    {check : Response → Except String α} {portal : String} {s : σ} {response : Response} {output : α}
    (h : judge check (t.send portal request s).1 = .ok (response, output)) (rest : List String) :
    fetch t request check (portal :: rest) s =
      (.ok ⟨portal, response, output, [], rest⟩, (t.send portal request s).2) := by
  simp only [fetch, h]

/-- If the first portal fails, the walk goes on with the others and reports it before theirs. -/
theorem fetch_of_failed {t : Transport σ} {request : Request}
    {check : Response → Except String α} {portal : String} {s : σ} {cause : Cause}
    (h : judge check (t.send portal request s).1 = .error cause) (rest : List String) :
    fetch t request check (portal :: rest) s =
      (match (fetch t request check rest (t.send portal request s).2).1 with
        | .ok success => .ok (success.after ⟨portal, cause⟩)
        | .error failures => .error (⟨portal, cause⟩ :: failures),
      (fetch t request check rest (t.send portal request s).2).2) := by
  simp only [fetch, h]
  generalize fetch t request check rest (t.send portal request s).2 = r
  obtain ⟨r, s'⟩ := r
  cases r <;> rfl

end Walk

end Trustless.Portal
