import Trustless.Resolution.Proof

/-!
# Following links through the registry

A link to an entry is resolved by the entry of that name, whose data is the next link, and so on as
far as the portal has sent hops. Nothing of what a portal says about this is believed: every entry
must have the name that the link before it asks for and carry the signature of its owner. Only behind
the last hop must there be a link to data. One that stands before another hop is followed like a link
to an entry, if its root is the name of that hop.

* `followHop`: one step, with the three checks in their order.
* `verifyChain`: the whole way; an error names the first hop that fails.
-/

namespace Trustless.Resolution

/-- The link in a hop, which must point at something. -/
def nextLink (hop : Nat) (p : Proof) : Except ResolverError Link :=
  match Link.ofBytes p.entry.data with
  | .error e => .error (.invalidLink hop e)
  | .ok next =>
    match next.target with
    | .error e => .error (.invalidLink hop e)
    | .ok _ => .ok next

/-- The link that a hop leads to from the current one. -/
def followHop (hop : Nat) (current : Link) (p : Proof) : Except ResolverError Link := do
  let next ← nextLink hop p
  if Registry.Entry.name p.publicKey p.dataKey ≠ current.root then throw (.entryIdMismatch hop)
  if !p.entry.verify p.publicKey p.dataKey then throw (.badSignature hop)
  return next

/-- The link that hops lead to, numbered from `hop` on; it must be one to data. -/
def follow (hop : Nat) (current : Link) : List Proof → Except ResolverError Link
  | [] =>
    match current.target with
    | .ok (.data ..) => .ok current
    | _ => .error .finalLinkNotImmutable
  | p :: ps => do
    let next ← followHop hop current p
    follow (hop + 1) next ps

/-- The link to data that a chain of hops leads to. -/
def verifyChain (start : Link) (ps : List Proof) : Except ResolverError Link :=
  if ps.isEmpty then .error .emptyChain else follow 0 start ps

/-- The link to data that the hops in a JSON text lead to. -/
def resolve (start : Link) (text : String) : Except ResolverError Link :=
  Proof.parseAll text >>= verifyChain start

end Trustless.Resolution
