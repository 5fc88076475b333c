import Trustless.Portal.Address
import Trustless.Portal.Config

/-!
# Ways to reach portals

A transport takes a request to a portal and brings back the answer. What it needs to remember between
two requests is its state, of a type of its own; a client never looks into it.

* `Transport.recorded`: a transport that keeps a record of the requests.
* `Transport.http`: a transport over HTTP, given the means to send a request to an address.
-/

namespace Trustless.Portal

/-- A way to reach portals. -/
structure Transport (σ : Type) where
  /-- Sends a request to a portal. -/
  send : String → Request → σ → Except TransportError Response × σ

/-- A request with the portal that got it. -/
structure Asked where
  portal : String
  request : Request
deriving DecidableEq

namespace Transport

variable {σ : Type}

/-- The same transport with a record of all requests in their order. -/
def recorded (t : Transport σ) : Transport (σ × List Asked) where
  send portal request := fun (s, asked) =>
    let (answer, s) := t.send portal request s
    (answer, s, asked ++ [⟨portal, request⟩])

theorem recorded_send (t : Transport σ) (portal : String) (request : Request) (s : σ)
    (asked : List Asked) :
    t.recorded.send portal request (s, asked) =
      ((t.send portal request s).1, (t.send portal request s).2, asked ++ [⟨portal, request⟩]) :=
  rfl

/-- Whether a character may stand in a header: no control character but the tab. -/
def isHeaderChar (c : Char) : Bool :=
  c == '\t' || (32 ≤ c.toNat && c.toNat ≠ 127)

/-- How the HTTP library words that something cannot be built. -/
def builderFault : String := "builder error"

/-- A transport over HTTP. The portal's address is checked before anything is sent to it by `dial`,
and a client that calls itself by what no header can hold cannot be built. -/
def http (c : Config) (dial : String → Request → σ → Except TransportError Response × σ) :
    Except TransportError (Transport σ) :=
  if c.userAgent.toList.all isHeaderChar then
    .ok ⟨fun portal request s =>
      match address portal request.endpoint with
      | .error e => (.error e, s)
      | .ok url =>
        if startsWithScheme url then dial url request s
        else (.error (.invalidUrl builderFault), s)⟩
  else .error (.client builderFault)

end Transport

end Trustless.Portal
