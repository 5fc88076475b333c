import Trustless.Proofs.Registry.Digest
import Trustless.Proofs.Resolution.Followed

/-!
# Who owns the hops of a chain

The link before a hop is the name of its entry, and a name tells the owner and the data key. Whoever
sends the hops for a link can therefore only send hops of the owner that the link was made for. After
a hop this goes on with the link in its data: two chains that hold the same data at a hop have the same
owner at the next one, whatever their revisions and signatures are, and whichever of them ends first.

* `SameOwner`: two hops with one owner and one data key, or a collision.
* `Path.named`: a hop of a path has the name that the link before it asks for.
* `OwnersAgree`, `ownersAgree_of_path`: two chains from one link.
* `digests_binding`: what the hashes of entries and the links of a chain commit to.
-/

namespace Trustless.Resolution

open Registry (Entry)

variable {start current last last' : Link} {p p' : Proof} {ps ps' : List Proof} {k : Nat}

/-- Two hops have one owner and one data key, or what is hashed for their names collides. -/
def SameOwner (p p' : Proof) : Prop :=
  (p.publicKey = p'.publicKey ∧ p.dataKey = p'.dataKey) ∨ Hasher.blake2b.Collides
    [Entry.nameInput p.publicKey p.dataKey] [Entry.nameInput p'.publicKey p'.dataKey]

/-- Hops that one link asks for have one owner. -/
theorem sameOwner_of_named (h : p.Named current) (h' : p'.Named current) : SameOwner p p' :=
  Entry.name_binding (h.trans h'.symm)

/-- A hop of a path has the name that the link before it asks for. -/
theorem Path.named (h : Path start ps last) (hp : ps[k]? = some p) :
    ∃ current, linkAt start ps k = some current ∧ p.Named current := by
  obtain ⟨hk, -⟩ := List.getElem?_eq_some_iff.mp hp
  obtain ⟨current, q, next, hlink, hq, hleads⟩ := (path_iff.mp h).1 k hk
  cases hp.symm.trans hq
  exact ⟨current, hlink, hleads.name⟩

/-- The data of a hop tells the link before the next one. -/
theorem linkAt_succ_congr (hp : ps[k]? = some p) (hp' : ps'[k]? = some p')
    (h : p.entry.data = p'.entry.data) (start start' : Link) :
    linkAt start ps (k + 1) = linkAt start' ps' (k + 1) := by
  rw [linkAt, linkAt, hp, hp', Option.bind_some, Option.bind_some, h]

/-- Hops of two paths that resolve one link have one owner. -/
theorem sameOwner_of_linkAt (h : Path start ps last) (h' : Path start ps' last')
    (hp : ps[k]? = some p) (hp' : ps'[k]? = some p')
    (hlink : linkAt start ps k = linkAt start ps' k) : SameOwner p p' := by
  obtain ⟨current, hcurrent, hname⟩ := h.named hp
  obtain ⟨current', hcurrent', hname'⟩ := h'.named hp'
  cases hcurrent.symm.trans (hlink.trans hcurrent')
  exact sameOwner_of_named hname hname'

/-- On which owners two chains agree. -/
structure OwnersAgree (ps ps' : List Proof) : Prop where
  /-- Both have a first hop, of one owner. -/
  first : ∃ p p', ps[0]? = some p ∧ ps'[0]? = some p' ∧ SameOwner p p'
  /-- Behind hops with the same data, the next hops have one owner. -/
  next : ∀ k p p' q q', ps[k]? = some p → ps'[k]? = some p' → p.entry.data = p'.entry.data →
    ps[k + 1]? = some q → ps'[k + 1]? = some q' → SameOwner q q'

/-- **Two chains from one link agree on the owner** of their first hops and of those behind hops with
the same data. -/
theorem ownersAgree_of_path (h : Path start ps last) (h' : Path start ps' last') (hne : ps ≠ [])
    (hne' : ps' ≠ []) : OwnersAgree ps ps' := by
  constructor
  case first =>
    obtain ⟨p, hp⟩ : ∃ p, ps[0]? = some p :=
      ⟨_, List.getElem?_eq_getElem (List.length_pos_iff.mpr hne)⟩
    obtain ⟨p', hp'⟩ : ∃ p', ps'[0]? = some p' :=
      ⟨_, List.getElem?_eq_getElem (List.length_pos_iff.mpr hne')⟩
    exact ⟨p, p', hp, hp', sameOwner_of_linkAt h h' hp hp' rfl⟩
  case next =>
    intro k p p' q q' hp hp' hdata hq hq'
    exact sameOwner_of_linkAt h h' hq hq' (linkAt_succ_congr hp hp' hdata start start)

/-- **The hashes of entries bind every field.** A signed hash tells the data key, the value and the
revision, whatever the length of the value is, and a link to an entry tells the owner and the data key.
So two chains that are accepted from one link agree on the owner of their first hops, and of the next
hops as long as their data agree. Each of this holds unless two different inputs with one hash are
given by what was hashed. -/
theorem digests_binding :
    (∀ dataKey dataKey' data data' revision revision',
      Entry.hash dataKey data revision = Entry.hash dataKey' data' revision' →
        (dataKey = dataKey' ∧ data = data' ∧ revision = revision') ∨ Hasher.blake2b.Collides
          [Entry.hashInput dataKey data revision] [Entry.hashInput dataKey' data' revision']) ∧
    (∀ owner owner' dataKey dataKey', Entry.link owner dataKey = Entry.link owner' dataKey' →
      (owner = owner' ∧ dataKey = dataKey') ∨ Hasher.blake2b.Collides
        [Entry.nameInput owner dataKey] [Entry.nameInput owner' dataKey']) ∧
    ∀ start ps ps' l l', verifyChain start ps = .ok l → verifyChain start ps' = .ok l' →
      OwnersAgree ps ps' := by
  refine ⟨fun _ _ _ _ _ _ => Entry.hash_binding, fun _ _ _ _ => Entry.link_binding, ?_⟩
  intro start ps ps' l l' h h'
  obtain ⟨hne, hpath, -⟩ := verifyChain_eq_ok_iff.mp h
  obtain ⟨hne', hpath', -⟩ := verifyChain_eq_ok_iff.mp h'
  exact ownersAgree_of_path hpath hpath' hne hne'

open Hop (ofZeroSeed firstEntry secondEntry)

/-- The two hops, with an earlier revision of the second one. -/
def earlierHops : List Proof :=
  Hop.proofs twoPages [firstEntry, ofZeroSeed 1 5]

theorem verifyChain_earlierHops : verifyChain firstEntry.link earlierHops = .ok twoPages :=
  verifyChain_of_vouches (Keypair.vouches_zero_iff.mpr (by decide +kernel))

/-- Two chains that differ in the revision of their second hop have one owner there. -/
theorem digests_binding_later_revision :
    verifyChain firstEntry.link earlierHops = .ok twoPages ∧
    verifyChain firstEntry.link twoHops = .ok twoPages ∧
    OwnersAgree earlierHops twoHops ∧
    SameOwner ((ofZeroSeed 1 5).proof twoPages) (secondEntry.proof twoPages) := by
  have hlink : (ofZeroSeed 1 5).link = secondEntry.link := by
    rw [secondEntry, Hop.link_ofZeroSeed, Hop.link_ofZeroSeed]
  have hagree := digests_binding.2.2 _ _ _ _ _ verifyChain_earlierHops verifyChain_twoHops
  refine ⟨verifyChain_earlierHops, verifyChain_twoHops, hagree, ?_⟩
  exact hagree.next 0 _ _ _ _ rfl rfl (congrArg (·.bytes.toByteArray) hlink) rfl rfl

end Trustless.Resolution
