import Trustless.Proofs.Key
import Trustless.Proofs.Resolution.Chain
import Trustless.Proofs.Resolution.Header

/-!
# Chains that are built honestly are resolved

An owner of entries puts a link into each of them: the name of the next entry, and at last the link
to data. The entries are signed one by one, written into a header and sent along. Whoever starts at
the first entry gets to the data, however long the chain is, with any revisions and with keys that
come up more than once.

Of the signatures only one thing is assumed, for the keypairs and the messages that are signed here:
that the public half of a keypair is a key and verifies what the keypair signs.

* `Hop.link`, `Hop.start`, `Hop.signAll`: the chain that the owners build.
* `Hop.signed`: the messages that are signed, for which the keypairs are to vouch.
* `Hop.path_proofs`: the signed hops lead to the target.
* `Hop.resolve_signAll`: the chain is resolved.
* `Hop.ofZeroSeed`, `Hop.vouches_twoEntries`: entries of one keypair, whose signatures are computed.
-/

namespace Trustless.Resolution

open Registry (Entry)

/-- A link to two pages. -/
def twoPages : Link :=
  Link.ofBits 8 (.zero 32)

theorem target_twoPages : twoPages.target = .ok (.data 0 8192) := by
  rw [twoPages, Link.target, Link.bits_ofBits (by decide)]
  rfl

theorem isValid_twoPages : twoPages.isValid = true :=
  Link.isValid_iff.mpr ⟨_, target_twoPages⟩

/-- An entry that is to be written, by its owner. -/
structure Hop where
  keypair : Keypair
  dataKey : ByteVector 32
  revision : UInt64

namespace Hop

variable {target : Link} {hops : List Hop} {offset size : Nat}

/-! ## Building a chain -/

/-- The link that the entry resolves. -/
def link (h : Hop) : Link :=
  Entry.link h.keypair.publicKey h.dataKey

/-- The link at which a chain starts that leads to a target. -/
def start (target : Link) : List Hop → Link
  | [] => target
  | h :: _ => h.link

/-- Signs all entries of a chain. Each of them holds the link that the next one resolves, and the
last one holds the target. -/
def signAll (target : Link) : List Hop → Except RegistryError (List Proof)
  | [] => .ok []
  | h :: hops => do
    let p ← Proof.sign h.keypair h.dataKey (start target hops) h.revision
    let ps ← signAll target hops
    return p :: ps

/-- What is signed if the entry holds a link. -/
def message (h : Hop) (next : Link) : ByteArray :=
  (Entry.hash h.dataKey next.bytes.toByteArray h.revision).toByteArray

/-- What is signed in a chain, each message with the keypair that signs it. -/
def signed (target : Link) : List Hop → List (Keypair × ByteArray)
  | [] => []
  | h :: hops => (h.keypair, h.message (start target hops)) :: signed target hops

/-! ## The signed entries -/

/-- The signed entry with a link. -/
def proof (h : Hop) (next : Link) : Proof :=
  ⟨⟨next.bytes.toByteArray, h.revision, h.keypair.sign (h.message next)⟩, h.dataKey,
    h.keypair.publicKey⟩

/-- The signed entries of a chain. -/
def proofs (target : Link) : List Hop → List Proof
  | [] => []
  | h :: hops => h.proof (start target hops) :: proofs target hops

theorem length_proofs (target : Link) (hops : List Hop) :
    (proofs target hops).length = hops.length := by
  induction hops with
  | nil => rfl
  | cons h hops ih => exact congrArg Nat.succ ih

/-- A link always fits into an entry. -/
theorem sign_eq (h : Hop) (next : Link) :
    Proof.sign h.keypair h.dataKey next h.revision = .ok (h.proof next) := by
  have hfits : next.bytes.toByteArray.size ≤ Registry.maxDataSize := by
    rw [next.bytes.size_eq]
    decide
  rw [Proof.sign, Entry.sign_of_fits hfits]
  rfl

theorem signAll_eq (target : Link) (hops : List Hop) :
    signAll target hops = .ok (proofs target hops) := by
  induction hops with
  | nil => rfl
  | cons h hops ih =>
    rw [signAll, sign_eq, ih]
    rfl

/-! ## Where they lead -/

/-- A chain starts at a link that points at something. -/
theorem isValid_start (h : target.isValid = true) (hops : List Hop) :
    (start target hops).isValid = true := by
  cases hops with
  | nil => exact h
  | cons hop hops => exact Link.isValid_iff.mpr ⟨_, Link.target_toEntry _⟩

/-- A signed entry leads from any link with its name for a root to the link that it holds. -/
theorem leads_proof_of_root {h : Hop} {current next : Link} (hnext : next.isValid = true)
    (hroot : Entry.name h.keypair.publicKey h.dataKey = current.root)
    (hsigned : h.keypair.Vouches (h.message next)) : (h.proof next).Leads current next :=
  ⟨⟨rfl, hnext⟩, hroot, hsigned.verifies⟩

/-- A signed entry leads from the link that it resolves to the one that it holds. -/
theorem leads_proof {h : Hop} {next : Link} (hnext : next.isValid = true)
    (hsigned : h.keypair.Vouches (h.message next)) : (h.proof next).Leads h.link next :=
  leads_proof_of_root hnext (Link.root_toEntry _).symm hsigned

/-- **The signed entries of a chain lead to its target.** -/
theorem path_proofs (htarget : target.isValid = true)
    (hsigned : ∀ e ∈ signed target hops, e.1.Vouches e.2) :
    Path (start target hops) (proofs target hops) target := by
  induction hops with
  | nil => exact .nil
  | cons h hops ih =>
    obtain ⟨hfirst, hrest⟩ := List.forall_mem_cons.mp hsigned
    exact .cons (leads_proof (isValid_start htarget hops) hfirst) (ih hrest)

/-- The signed entries of a chain can be written into a header. -/
theorem wellFormed_proofs (hsigned : ∀ e ∈ signed target hops, e.1.Vouches e.2) :
    ∀ p ∈ proofs target hops, p.WellFormed := by
  induction hops with
  | nil => exact nofun
  | cons h hops ih =>
    obtain ⟨hfirst, hrest⟩ := List.forall_mem_cons.mp hsigned
    refine List.forall_mem_cons.mpr ⟨⟨hfirst.key, ?_⟩, ih hrest⟩
    exact (Ed25519.sign h.keypair.seed (h.message (start target hops))).size_eq

/-- **A chain that is built honestly is resolved**, whatever its length, its keys and its revisions
are. All entries are signed, and their header leads from the link of the first entry to the
target. -/
theorem resolve_signAll (first : Hop) (hops : List Hop)
    (htarget : target.target = .ok (.data offset size))
    (hsigned : ∀ e ∈ signed target (first :: hops), e.1.Vouches e.2) :
    ∃ ps, signAll target (first :: hops) = .ok ps ∧ ps.length = (first :: hops).length ∧
      resolve first.link (Proof.encodeAll ps) = .ok target := by
  have hvalid : target.isValid = true := Link.isValid_iff.mpr ⟨_, htarget⟩
  have hread : Proof.parseAll (Proof.encodeAll (proofs target (first :: hops)))
      = .ok (proofs target (first :: hops)) :=
    Proof.parseAll_encodeAll_iff.mpr ⟨List.cons_ne_nil _ _, wellFormed_proofs hsigned⟩
  have hpath : Path first.link (proofs target (first :: hops)) target := path_proofs hvalid hsigned
  refine ⟨_, signAll_eq target _, length_proofs target _, ?_⟩
  rw [resolve, hread]
  show verifyChain first.link (proofs target (first :: hops)) = .ok target
  exact verifyChain_eq_ok_iff.mpr ⟨List.cons_ne_nil _ _, hpath, offset, size, htarget⟩

/-! ## Entries of the seed of zeros -/

/-- An entry of the keypair of the seed of zeros. -/
def ofZeroSeed (dataKey revision : Nat) : Hop :=
  ⟨.zero, Bytes.ofNat 32 dataKey, revision.toUInt64⟩

/-- The link is the same for all revisions. -/
theorem link_ofZeroSeed (dataKey revision : Nat) : (ofZeroSeed dataKey revision).link
    = Entry.link ⟨Keypair.zeroKey⟩ (Bytes.ofNat 32 dataKey) :=
  congrArg (Entry.link · _) Keypair.publicKey_zero

/-- The first entry of the seed, of the least revision. -/
def firstEntry : Hop :=
  ofZeroSeed 0 0

/-- The second entry of the seed, of the greatest revision. -/
def secondEntry : Hop :=
  ofZeroSeed 1 18446744073709551615

theorem vouches_firstEntry (revision : Nat) :
    Keypair.zero.Vouches (firstEntry.message (ofZeroSeed 1 revision).link) := by
  rw [link_ofZeroSeed]
  exact Keypair.vouches_zero_iff.mpr (by decide +kernel)

theorem vouches_secondEntry : Keypair.zero.Vouches (secondEntry.message twoPages) :=
  Keypair.vouches_zero_iff.mpr (by decide +kernel)

/-- With the second entry of any revision, only its own signature is left. -/
theorem vouches_twoEntries {revision : Nat}
    (h : Keypair.zero.Vouches ((ofZeroSeed 1 revision).message twoPages)) :
    ∀ e ∈ signed twoPages [firstEntry, ofZeroSeed 1 revision], e.1.Vouches e.2 :=
  List.forall_mem_cons.mpr ⟨vouches_firstEntry revision, List.forall_mem_singleton.mpr h⟩

/-- The signed entries of one keypair are resolved. -/
theorem resolve_signAll_two_entries :
    twoPages.target = .ok (.data 0 8192) ∧
    (∀ e ∈ signed twoPages [ofZeroSeed 0 0, ofZeroSeed 1 18446744073709551615],
      e.1.Vouches e.2) ∧
    ∃ ps, signAll twoPages [ofZeroSeed 0 0, ofZeroSeed 1 18446744073709551615] = .ok ps ∧
      ps.length = 2 ∧ resolve (ofZeroSeed 0 0).link (Proof.encodeAll ps) = .ok twoPages := by
  have hsigned := vouches_twoEntries vouches_secondEntry
  exact ⟨target_twoPages, hsigned, resolve_signAll _ _ target_twoPages hsigned⟩

end Hop

end Trustless.Resolution
