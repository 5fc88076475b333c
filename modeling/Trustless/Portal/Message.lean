import Trustless.Bytes.Basic

/-!
# Requests and answers

What is sent to a portal and what comes back. The same request is sent to each portal in turn, so it
names no portal. Any status is an answer; `TransportError` says why there was none.
-/

namespace Trustless

/-- Why a portal gave no answer. -/
inductive TransportError
  | invalidUrl (text : String)
  | timeout
  | request (text : String)
  | client (text : String)
deriving DecidableEq, Repr

/-- The wording of a transport error. -/
def TransportError.message : TransportError → String
  | invalidUrl text => s!"invalid portal url {text}"
  | timeout => "request timed out"
  | request text => s!"request failed: {text}"
  | client text => s!"could not build http client: {text}"

namespace Portal

/-- A request to any portal. -/
inductive Request
  | get (endpoint : String)
  | post (endpoint : String) (body : ByteArray) (contentType : String)
deriving DecidableEq

namespace Request

/-- The name of the method. -/
def method : Request → String
  | get .. => "GET"
  | post .. => "POST"

/-- Path and query. -/
def endpoint : Request → String
  | get endpoint | post endpoint .. => endpoint

/-- What is sent along. -/
def body? : Request → Option ByteArray
  | get .. => none
  | post _ body _ => some body

/-- What kind of content is sent along. -/
def contentType? : Request → Option String
  | get .. => none
  | post _ _ contentType => some contentType

end Request

/-- An answer to a request. -/
structure Response where
  status : Nat
  /-- Names in lower case, with their values. -/
  headers : List (String × String)
  body : ByteArray
deriving DecidableEq

namespace Response

/-- An answer without headers. -/
def ofBody (status : Nat) (body : ByteArray) : Response :=
  ⟨status, [], body⟩

/-- Adds a header. -/
def withHeader (r : Response) (name value : String) : Response :=
  { r with headers := r.headers ++ [(name.toLower, value)] }

/-- The value of the first header of a name, in which case does not matter. -/
def header? (r : Response) (name : String) : Option String :=
  (r.headers.find? fun h => h.1.toLower == name.toLower).map Prod.snd

/-- Whether the status means success. -/
def isSuccess (r : Response) : Bool :=
  200 ≤ r.status && r.status < 300

end Response

end Portal

end Trustless
