import Trustless.Proofs.Merkle.Binding
import Trustless.Proofs.Resolution.Honest

/-!
# Which links a chain goes on from

Only the end of a chain is asked what kind of link it is. On the way, a link to data is followed like
one to an entry if its root is the name of an entry. Whoever sends the chain may then end it at that
link or go on from it.

* `Path.take`: hops that lead all the way lead to the link before each of them.
* `accepted_take_iff`: a chain that is cut off is accepted exactly at a link to data.
* `RangeProof.node_of_verify`, `collides_of_named`: the root of a sector is the name of no entry, or
  what is hashed for the two collides.
* `followed_links`: when only links to entries are followed, and what another link that is followed
  looks like.
* `followed_links_entry`, `data_link_followed`: a chain that goes on from links to entries only, and
  one that goes on from a link to data.
-/

namespace Trustless.RangeProof

variable {H : Hasher} {root : Digest} {offset size : Nat} {data proof : ByteArray}

/-- Whatever is accepted against a root, the root is the hash of a node. -/
theorem node_of_verify (h : verify H root offset size data proof = .ok ()) :
    ∃ l r, root = H.node l r ∧ Hasher.nodeInput l r ∈ inputs H offset size data proof := by
  obtain ⟨first, last, t, hr, hd, hp, ht, rfl⟩ := verify_eq_ok_iff.mp h
  obtain ⟨hlt, hlast, -, -⟩ := leafRange_eq_ok_iff.mp hr
  have hcovers := covers_hashTree hr hd hp ht
  rw [inputs_eq ht]
  rw [Sector.leaves] at hlast
  cases hcovers with
  | given hout => omega
  | node => exact ⟨_, _, rfl, List.mem_cons_self⟩

end Trustless.RangeProof

namespace Trustless.Resolution

open Registry (Entry)

variable {start current last l l' : Link} {p : Proof} {ps : List Proof} {k : Nat}

/-! ## Cutting off a chain -/

/-- Hops lead to one link only. -/
theorem Path.unique (h : Path start ps l) (h' : Path start ps l') : l = l' :=
  Option.some.inj ((path_iff.mp h).2.symm.trans (path_iff.mp h').2)

/-- **Hops that lead all the way lead to the link before each of them.** -/
theorem Path.take (h : Path start ps last) (hk : k ≤ ps.length) :
    ∃ mid, Path start (ps.take k) mid ∧ linkAt start ps k = some mid := by
  obtain ⟨hpasses, -⟩ := path_iff.mp h
  obtain ⟨mid, hmid⟩ := exists_linkAt fun j hj => hpasses j (hj.trans_le hk)
  have hlen : (ps.take k).length = k := List.length_take_of_le hk
  refine ⟨mid, (path_before_iff (ps.drop k)).mpr ?_, hmid⟩
  rw [List.take_append_drop, hlen]
  exact ⟨fun j hj => hpasses j (hj.trans_le hk), hmid⟩

/-- The link before a hop of a path points at something, if the path starts at such a link. -/
theorem Path.isValid_linkAt (h : Path start ps last) (hstart : start.isValid = true)
    (hk : k ≤ ps.length) (hlink : linkAt start ps k = some current) : current.isValid = true := by
  cases k with
  | zero =>
    cases hlink
    exact hstart
  | succ k =>
    obtain ⟨mid, hpath, hmid⟩ := h.take hk
    cases hlink.symm.trans hmid
    refine hpath.isValid fun hnil => ?_
    have hlen := List.length_take_of_le hk
    rw [hnil] at hlen
    cases hlen

/-- **A chain that is cut off is accepted exactly at a link to data.** -/
theorem accepted_take_iff (h : Path start ps last) (hk : k ≤ ps.length) :
    (∃ l, verifyChain start (ps.take k) = .ok l) ↔ 0 < k ∧ ∃ current offset size,
      linkAt start ps k = some current ∧ current.target = .ok (.data offset size) := by
  obtain ⟨mid, hpath, hmid⟩ := h.take hk
  have hne : ps.take k ≠ [] ↔ 0 < k := by
    rw [← List.length_pos_iff, List.length_take_of_le hk]
  constructor
  · rintro ⟨l, hl⟩
    obtain ⟨hnil, hl, offset, size, htarget⟩ := verifyChain_eq_ok_iff.mp hl
    cases hl.unique hpath
    exact ⟨hne.mp hnil, mid, offset, size, hmid, htarget⟩
  · rintro ⟨hpos, current, offset, size, hlink, htarget⟩
    cases hlink.symm.trans hmid
    exact ⟨mid, verifyChain_eq_ok_iff.mpr ⟨hne.mpr hpos, hpath, offset, size, htarget⟩⟩

/-! ## Links that are followed -/

/-- The link that hop `k` of a chain resolves is one to an entry. -/
def ResolvesEntry (start : Link) (ps : List Proof) (k : Nat) : Prop :=
  ∃ current, linkAt start ps k = some current ∧ current.target = .ok .entry

/-- A hop of a path resolves a link to an entry or one to data. -/
theorem Path.resolves (h : Path start ps last) (hstart : start.target = .ok .entry)
    (hk : k ≤ ps.length) : ResolvesEntry start ps k ∨ 0 < k ∧ ∃ current offset size,
      linkAt start ps k = some current ∧ current.target = .ok (.data offset size) := by
  obtain ⟨current, -, hlink⟩ := h.take hk
  obtain ⟨t, htarget⟩ := Link.isValid_iff.mp
    (h.isValid_linkAt (Link.isValid_iff.mpr ⟨_, hstart⟩) hk hlink)
  cases t with
  | entry => exact .inl ⟨current, hlink, htarget⟩
  | data offset size =>
    refine .inr ⟨Nat.pos_of_ne_zero ?_, current, offset, size, hlink, htarget⟩
    rintro rfl
    cases hlink
    cases hstart.symm.trans htarget

/-- **The root of a sector is the name of no entry**, or what is hashed for the two collides: a name
is hashed from more bytes than a node. -/
theorem collides_of_named {sector : ByteArray} (hs : sector.size = Sector.size)
    (hroot : Hasher.blake2b.merkleRoot sector = .ok current.root) (hname : p.Named current) :
    Hasher.blake2b.Collides (Hasher.blake2b.rootInputs sector)
      [Entry.nameInput p.publicKey p.dataKey] := by
  obtain ⟨left, right, hnode, hmem⟩ :=
    RangeProof.node_of_verify (RangeProof.verify_whole hs hroot)
  rw [RangeProof.inputs_whole] at hmem
  refine ⟨_, hmem, _, List.mem_singleton_self _, ?_, hnode.symm.trans hname.symm⟩
  have hnodeSize : (Hasher.nodeInput left right).size = 65 := by
    rw [Hasher.nodeInput, ByteArray.size_append, ByteArray.size_append, left.size_eq,
      right.size_eq]
    rfl
  have hnameSize : (Entry.nameInput p.publicKey p.dataKey).size = 88 := by
    simp [Entry.nameInput, ByteVector.size_eq]
  intro heq
  rw [heq, hnameSize] at hnodeSize
  cases hnodeSize

/-- **Which links an accepted chain goes on from**, from a link to an entry. All of them are links to
entries exactly if the chain is not accepted when some of its last hops are left out, so that the
signed entries have one resolution. Any other link that a hop resolves is one to data that has the
name of the hop for its root, and if that is the root of a sector, then what is hashed for the two
collides. -/
theorem followed_links (haccept : verifyChain start ps = .ok l)
    (hstart : start.target = .ok .entry) :
    ((∀ k < ps.length, ResolvesEntry start ps k) ↔
      ∀ k < ps.length, ∀ l', verifyChain start (ps.take k) ≠ .ok l') ∧
    ∀ k < ps.length, ResolvesEntry start ps k ∨ ∃ p current offset size,
      ps[k]? = some p ∧ linkAt start ps k = some current ∧
      current.target = .ok (.data offset size) ∧
      Entry.name p.publicKey p.dataKey = current.root ∧
      ∀ sector, sector.size = Sector.size →
        Hasher.blake2b.merkleRoot sector = .ok current.root →
        Hasher.blake2b.Collides (Hasher.blake2b.rootInputs sector)
          [Entry.nameInput p.publicKey p.dataKey] := by
  obtain ⟨-, hpath, -⟩ := verifyChain_eq_ok_iff.mp haccept
  refine ⟨⟨fun hentries k hk l' hl' => ?_, fun hcut k hk => ?_⟩, fun k hk => ?_⟩
  · obtain ⟨-, current, offset, size, hlink, hdata⟩ :=
      (accepted_take_iff hpath hk.le).mp ⟨l', hl'⟩
    obtain ⟨current', hlink', hentry⟩ := hentries k hk
    cases hlink.symm.trans hlink'
    cases hdata.symm.trans hentry
  · refine (hpath.resolves hstart hk.le).resolve_right fun hdata => ?_
    obtain ⟨l', hl'⟩ := (accepted_take_iff hpath hk.le).mpr hdata
    exact hcut k hk l' hl'
  · refine (hpath.resolves hstart hk.le).imp_right ?_
    rintro ⟨-, current, offset, size, hlink, htarget⟩
    obtain ⟨current', p, next, hlink', hp, hleads⟩ := (path_iff.mp hpath).1 k hk
    cases hlink.symm.trans hlink'
    exact ⟨p, current, offset, size, hp, hlink, htarget, hleads.name,
      fun sector hs hroot => collides_of_named hs hroot hleads.name⟩

/-! ## Two hops of one owner -/

open Hop (ofZeroSeed firstEntry secondEntry vouches_secondEntry vouches_twoEntries)

/-- Two hops, with a link to an entry between them. -/
def twoHops : List Proof :=
  Hop.proofs twoPages [firstEntry, secondEntry]

/-- The two hops are accepted with any revision of the second one for which it is signed. -/
theorem verifyChain_of_vouches {revision : Nat}
    (h : Keypair.zero.Vouches ((ofZeroSeed 1 revision).message twoPages)) :
    verifyChain firstEntry.link (Hop.proofs twoPages [firstEntry, ofZeroSeed 1 revision])
      = .ok twoPages :=
  verifyChain_eq_ok_iff.mpr ⟨List.cons_ne_nil _ _,
    Hop.path_proofs isValid_twoPages (vouches_twoEntries h), 0, 8192, target_twoPages⟩

theorem verifyChain_twoHops : verifyChain firstEntry.link twoHops = .ok twoPages :=
  verifyChain_of_vouches vouches_secondEntry

/-- Two hops with a link to an entry between them have one resolution. -/
theorem followed_links_entry :
    verifyChain firstEntry.link twoHops = .ok twoPages ∧
    firstEntry.link.target = .ok .entry ∧
    ((∀ k < 2, ResolvesEntry firstEntry.link twoHops k) ↔
      ∀ k < 2, ∀ l', verifyChain firstEntry.link (twoHops.take k) ≠ .ok l') ∧
    ∀ k < 2, ResolvesEntry firstEntry.link twoHops k := by
  have hstart : firstEntry.link.target = .ok .entry := Link.target_toEntry _
  have hmiddle : secondEntry.link.target = .ok .entry := Link.target_toEntry _
  have hfirst : (firstEntry.proof secondEntry.link).HoldsLink secondEntry.link :=
    ⟨rfl, Link.isValid_iff.mpr ⟨_, hmiddle⟩⟩
  refine ⟨verifyChain_twoHops, hstart, (followed_links verifyChain_twoHops hstart).1, ?_⟩
  intro k hk
  obtain rfl | rfl : k = 0 ∨ k = 1 := by omega
  · exact ⟨_, rfl, hstart⟩
  · exact ⟨_, linkAt_cons hfirst _ _ 0, hmiddle⟩

/-- A link to data whose root is the name of the second entry. -/
def dataLink : Link :=
  Link.ofBits 0 (Entry.name Keypair.zero.publicKey (Bytes.ofNat 32 1))

theorem target_dataLink : dataLink.target = .ok (.data 0 4096) := by
  rw [dataLink, Link.target, Link.bits_ofBits (by decide)]
  rfl

theorem vouches_dataLink : Keypair.zero.Vouches (firstEntry.message dataLink) := by
  rw [dataLink, Keypair.publicKey_zero]
  exact Keypair.vouches_zero_iff.mpr (by decide +kernel)

/-- Two hops, with a link to data between them. -/
def twoHopsThroughData : List Proof :=
  [firstEntry.proof dataLink, secondEntry.proof twoPages]

/-- Two hops with a link to data between them are accepted, and so is the first of them alone. -/
theorem data_link_followed :
    firstEntry.link.target = .ok .entry ∧
    verifyChain firstEntry.link twoHopsThroughData = .ok twoPages ∧
    verifyChain firstEntry.link (twoHopsThroughData.take 1) = .ok dataLink ∧
    dataLink.target = .ok (.data 0 4096) ∧
    ¬ ∀ k < twoHopsThroughData.length, ResolvesEntry firstEntry.link twoHopsThroughData k := by
  have hfirst : (firstEntry.proof dataLink).Leads firstEntry.link dataLink :=
    Hop.leads_proof (Link.isValid_iff.mpr ⟨_, target_dataLink⟩) vouches_dataLink
  have hsecond : (secondEntry.proof twoPages).Leads dataLink twoPages :=
    Hop.leads_proof_of_root isValid_twoPages (Link.root_ofBits 0 _).symm vouches_secondEntry
  refine ⟨Link.target_toEntry _, ?_, ?_, target_dataLink, fun hentries => ?_⟩
  · exact verifyChain_eq_ok_iff.mpr ⟨List.cons_ne_nil _ _, .cons hfirst (.cons hsecond .nil),
      0, 8192, target_twoPages⟩
  · exact verifyChain_eq_ok_iff.mpr ⟨List.cons_ne_nil _ _, .cons hfirst .nil, 0, 4096,
      target_dataLink⟩
  · obtain ⟨current, hlink, hentry⟩ := hentries 1 (by decide)
    cases (linkAt_cons hfirst.link _ _ 0).symm.trans hlink
    cases target_dataLink.symm.trans hentry

end Trustless.Resolution
