import Trustless.Proofs.Link
import Trustless.Resolution.Chain

/-!
# What a chain of hops is decided by

Every hop of a chain is put to three checks: its data is a link that points at something, its name
is the one that the link before it asks for, and its owner has signed it. The walk goes on from the
link in the data, so that the checks of one hop depend on the hop before it and on no later one.

* `Proof.Leads`, `Proof.Fails`: a hop that passes, and the first check that one does not pass.
* `followHop_eq_ok_iff`, `followHop_eq_error_iff`: one hop is decided by them.
* `Path`: hops that pass one after the other; `follow_append` walks along a path,
  `path_or_fails` finds the first hop that does not pass.
* `path_iff`: a path in terms of the link before each hop.
* `verifyChain_eq_ok_iff`, `verifyChain_eq_error_iff`: the whole chain.
* `verifyChain_outcome`: when a chain is accepted, and which hop and check an error names.
-/

namespace Trustless.Resolution

variable {start current mid next last l : Link} {p : Proof} {ps before after : List Proof}
  {hop k : Nat} {e : ResolverError}

/-! ## One hop -/

namespace Proof

/-- The data of the hop is a link that points at something. -/
def HoldsLink (p : Proof) (next : Link) : Prop :=
  next.bytes.toByteArray = p.entry.data ∧ next.isValid = true

/-- Why the data of the hop is no link that points at something. -/
inductive LinkFault (p : Proof) : LinkError → Prop
  | length : p.entry.data.size ≠ 34 → LinkFault p (.wrongLength p.entry.data.size)
  | target {next : Link} {source : LinkError} :
      next.bytes.toByteArray = p.entry.data → next.target = .error source → LinkFault p source

/-- The hop has the name that a link asks for. -/
def Named (p : Proof) (current : Link) : Prop :=
  Registry.Entry.name p.publicKey p.dataKey = current.root

/-- The hop is signed by the owner it names. -/
def Signed (p : Proof) : Prop :=
  p.entry.verify p.publicKey p.dataKey = true

/-- The hop passes all checks and leads from one link to the next. -/
structure Leads (p : Proof) (current next : Link) : Prop where
  link : p.HoldsLink next
  name : p.Named current
  signature : p.Signed

/-- The first check that the hop does not pass, as the error that names the hop by its number. -/
inductive Fails (p : Proof) (hop : Nat) (current : Link) : ResolverError → Prop
  | link {source : LinkError} : p.LinkFault source → Fails p hop current (.invalidLink hop source)
  | name {next : Link} :
      p.HoldsLink next → ¬ p.Named current → Fails p hop current (.entryIdMismatch hop)
  | signature {next : Link} :
      p.HoldsLink next → p.Named current → ¬ p.Signed → Fails p hop current (.badSignature hop)

instance (p : Proof) (current : Link) : Decidable (p.Named current) :=
  inferInstanceAs (Decidable (_ = _))

instance (p : Proof) : Decidable p.Signed :=
  inferInstanceAs (Decidable (_ = _))

end Proof

theorem nextLink_eq_ok_iff : nextLink hop p = .ok next ↔ p.HoldsLink next := by
  rw [Proof.HoldsLink, ← Link.ofBytes_eq_ok_iff, Link.isValid_iff]
  unfold nextLink
  cases Link.ofBytes p.entry.data with
  | error source =>
    refine ⟨nofun, ?_⟩
    rintro ⟨⟨⟩, -⟩
  | ok link =>
    simp only [Except.ok.injEq]
    cases ht : link.target with
    | error source =>
      refine ⟨nofun, ?_⟩
      rintro ⟨rfl, t, htarget⟩
      cases ht.symm.trans htarget
    | ok t =>
      simp only [Except.ok.injEq]
      refine ⟨?_, And.left⟩
      rintro rfl
      exact ⟨rfl, t, ht⟩

theorem nextLink_eq_error_iff :
    nextLink hop p = .error e ↔ ∃ source, p.LinkFault source ∧ e = .invalidLink hop source := by
  constructor
  · intro h
    unfold nextLink at h
    cases hb : Link.ofBytes p.entry.data with
    | error source =>
      rw [hb] at h
      cases h
      obtain ⟨hsize, rfl⟩ := Link.ofBytes_eq_error_iff.mp hb
      exact ⟨_, .length hsize, rfl⟩
    | ok link =>
      cases ht : link.target with
      | error source =>
        simp only [hb, ht] at h
        cases h
        exact ⟨source, .target (Link.ofBytes_eq_ok_iff.mp hb) ht, rfl⟩
      | ok t =>
        simp only [hb, ht] at h
        cases h
  · rintro ⟨source, hfault, rfl⟩
    unfold nextLink
    cases hfault with
    | length hsize => rw [Link.ofBytes_eq_error_iff.mpr ⟨hsize, rfl⟩]
    | target hbytes htarget => simp only [Link.ofBytes_eq_ok_iff.mpr hbytes, htarget]

/-- The checks of a hop that holds a link. -/
theorem followHop_of_holdsLink (h : p.HoldsLink next) (hop : Nat) (current : Link) :
    followHop hop current p =
      if p.Named current then
        if p.Signed then .ok next else .error (.badSignature hop)
      else .error (.entryIdMismatch hop) := by
  unfold followHop
  rw [nextLink_eq_ok_iff.mpr h]
  by_cases hn : p.Named current
  · rw [if_pos hn]
    show (if ¬ p.Named current then _ else _) = _
    rw [if_neg (not_not.mpr hn)]
    by_cases hs : p.Signed
    · rw [if_pos hs, show p.entry.verify p.publicKey p.dataKey = true from hs]
      rfl
    · rw [if_neg hs, Bool.eq_false_iff.mpr hs]
      rfl
  · rw [if_neg hn]
    show (if ¬ p.Named current then _ else _) = _
    rw [if_pos hn]
    rfl

theorem followHop_of_linkFault {source : LinkError} (h : p.LinkFault source) (hop : Nat)
    (current : Link) : followHop hop current p = .error (.invalidLink hop source) := by
  unfold followHop
  rw [nextLink_eq_error_iff.mpr ⟨source, h, rfl⟩]
  rfl

/-- A hop holds a link, or there is a fault in its link. -/
theorem holdsLink_or_linkFault (p : Proof) :
    (∃ next, p.HoldsLink next) ∨ ∃ source, p.LinkFault source := by
  cases h : nextLink 0 p with
  | ok next => exact .inl ⟨next, nextLink_eq_ok_iff.mp h⟩
  | error e =>
    obtain ⟨source, hfault, -⟩ := nextLink_eq_error_iff.mp h
    exact .inr ⟨source, hfault⟩

/-- **A hop is followed exactly to where it leads.** -/
theorem followHop_eq_ok_iff : followHop hop current p = .ok next ↔ p.Leads current next := by
  constructor
  · intro h
    rcases holdsLink_or_linkFault p with ⟨link, hholds⟩ | ⟨source, hfault⟩
    · rw [followHop_of_holdsLink hholds] at h
      by_cases hname : p.Named current
      · by_cases hsigned : p.Signed
        · rw [if_pos hname, if_pos hsigned] at h
          cases h
          exact ⟨hholds, hname, hsigned⟩
        · rw [if_pos hname, if_neg hsigned] at h
          cases h
      · rw [if_neg hname] at h
        cases h
    · rw [followHop_of_linkFault hfault] at h
      cases h
  · intro h
    rw [followHop_of_holdsLink h.link, if_pos h.name, if_pos h.signature]

/-- **A hop is refused for exactly the first check that it does not pass.** -/
theorem followHop_eq_error_iff : followHop hop current p = .error e ↔ p.Fails hop current e := by
  constructor
  · intro h
    rcases holdsLink_or_linkFault p with ⟨link, hholds⟩ | ⟨source, hfault⟩
    · rw [followHop_of_holdsLink hholds] at h
      by_cases hname : p.Named current
      · by_cases hsigned : p.Signed
        · rw [if_pos hname, if_pos hsigned] at h
          cases h
        · rw [if_pos hname, if_neg hsigned] at h
          cases h
          exact .signature hholds hname hsigned
      · rw [if_neg hname] at h
        cases h
        exact .name hholds hname
    · rw [followHop_of_linkFault hfault] at h
      cases h
      exact .link hfault
  · intro h
    cases h with
    | link hfault => exact followHop_of_linkFault hfault hop current
    | name hholds hname => rw [followHop_of_holdsLink hholds, if_neg hname]
    | signature hholds hname hsigned =>
      rw [followHop_of_holdsLink hholds, if_pos hname, if_neg hsigned]

/-! ## Hops in a row -/

/-- Hops that lead from one link to another. -/
inductive Path : Link → List Proof → Link → Prop
  | nil {l : Link} : Path l [] l
  | cons {current next last : Link} {p : Proof} {ps : List Proof} :
      p.Leads current next → Path next ps last → Path current (p :: ps) last

/-- The walk along a path goes on from its end. -/
theorem follow_append (h : Path current before mid) (hop : Nat) (after : List Proof) :
    follow hop current (before ++ after) = follow (hop + before.length) mid after := by
  induction h generalizing hop with
  | nil => rfl
  | @cons _ _ _ _ ps hleads _ ih =>
    rw [List.cons_append, follow, followHop_eq_ok_iff.mpr hleads, List.length_cons,
      Nat.add_comm ps.length 1, ← Nat.add_assoc]
    exact ih (hop + 1)

/-- The walk ends at the first hop that does not pass, whatever comes after it. -/
theorem follow_of_fails (h : Path current before mid) (hf : p.Fails (hop + before.length) mid e)
    (after : List Proof) : follow hop current (before ++ p :: after) = .error e := by
  rw [follow_append h, follow, followHop_eq_error_iff.mpr hf]
  rfl

/-- Hops either lead all the way, or there is a first one that does not pass. -/
theorem path_or_fails (hop : Nat) (current : Link) (ps : List Proof) :
    (∃ last, Path current ps last) ∨
      ∃ before p after mid e, ps = before ++ p :: after ∧ Path current before mid ∧
        p.Fails (hop + before.length) mid e := by
  induction ps generalizing hop current with
  | nil => exact .inl ⟨current, .nil⟩
  | cons p ps ih =>
    cases h : followHop hop current p with
    | error e =>
      exact .inr ⟨[], p, ps, current, e, rfl, .nil, followHop_eq_error_iff.mp h⟩
    | ok next =>
      have hleads := followHop_eq_ok_iff.mp h
      rcases ih (hop + 1) next with
        ⟨last, hpath⟩ | ⟨before, q, after, mid, e, rfl, hpath, hfails⟩
      · exact .inl ⟨last, .cons hleads hpath⟩
      · refine .inr ⟨p :: before, q, after, mid, e, rfl, .cons hleads hpath, ?_⟩
        rwa [List.length_cons, Nat.add_comm before.length 1, ← Nat.add_assoc]

/-! ## The link before each hop -/

/-- The link that hop `k` of a chain resolves: the start, and then the data of the hop before. -/
def linkAt (start : Link) (ps : List Proof) : Nat → Option Link
  | 0 => some start
  | k + 1 => ps[k]?.bind fun p => (Link.ofBytes p.entry.data).toOption

/-- Hop `k` of a chain passes all checks. -/
def Passes (start : Link) (ps : List Proof) (k : Nat) : Prop :=
  ∃ current p next, linkAt start ps k = some current ∧ ps[k]? = some p ∧ p.Leads current next

theorem linkAt_cons (h : p.HoldsLink next) (start : Link) (ps : List Proof) (k : Nat) :
    linkAt start (p :: ps) (k + 1) = linkAt next ps k := by
  cases k with
  | zero =>
    show (Link.ofBytes p.entry.data).toOption = some next
    rw [Link.ofBytes_eq_ok_iff.mpr h.1]
    rfl
  | succ k => rfl

theorem passes_cons (h : p.HoldsLink next) (start : Link) (ps : List Proof) (k : Nat) :
    Passes start (p :: ps) (k + 1) ↔ Passes next ps k := by
  unfold Passes
  rw [linkAt_cons h, List.getElem?_cons_succ]

theorem passes_zero : Passes start (p :: ps) 0 ↔ ∃ next, p.Leads start next := by
  constructor
  · rintro ⟨current, q, next, hlink, hq, hleads⟩
    cases hlink
    cases hq
    exact ⟨next, hleads⟩
  · rintro ⟨next, hleads⟩
    exact ⟨start, p, next, rfl, rfl, hleads⟩

/-- **A path is a chain whose hops all pass**, each from the link before it. -/
theorem path_iff : Path start ps last ↔
    (∀ k < ps.length, Passes start ps k) ∧ linkAt start ps ps.length = some last := by
  induction ps generalizing start with
  | nil =>
    constructor
    · rintro ⟨⟩
      exact ⟨nofun, rfl⟩
    · rintro ⟨-, hlast⟩
      cases hlast
      exact .nil
  | cons p ps ih =>
    constructor
    · rintro ⟨⟩
      rename_i next hleads htail
      obtain ⟨hpasses, hlast⟩ := ih.mp htail
      refine ⟨fun k hk => ?_, by rw [List.length_cons, linkAt_cons hleads.link]; exact hlast⟩
      cases k with
      | zero => exact passes_zero.mpr ⟨next, hleads⟩
      | succ k => exact (passes_cons hleads.link ..).mpr (hpasses k (Nat.lt_of_succ_lt_succ hk))
    · rintro ⟨hpasses, hlast⟩
      obtain ⟨next, hleads⟩ := passes_zero.mp (hpasses 0 (Nat.succ_pos _))
      rw [List.length_cons, linkAt_cons hleads.link] at hlast
      refine .cons hleads (ih.mpr ⟨fun k hk => ?_, hlast⟩)
      exact (passes_cons hleads.link ..).mp (hpasses (k + 1) (Nat.succ_lt_succ hk))

theorem linkAt_append (h : k ≤ before.length) (start : Link) (after : List Proof) :
    linkAt start (before ++ after) k = linkAt start before k := by
  cases k with
  | zero => rfl
  | succ k => rw [linkAt, linkAt, List.getElem?_append_left h]

theorem passes_append (h : k < before.length) (start : Link) (after : List Proof) :
    Passes start (before ++ after) k ↔ Passes start before k := by
  unfold Passes
  rw [linkAt_append (Nat.le_of_lt h), List.getElem?_append_left h]

/-- The hops before a place all pass exactly if they lead to the link there. -/
theorem path_before_iff (after : List Proof) : Path start before mid ↔
    (∀ k < before.length, Passes start (before ++ after) k) ∧
      linkAt start (before ++ after) before.length = some mid := by
  rw [path_iff, linkAt_append le_rfl]
  exact and_congr_left fun _ => forall₂_congr fun k hk => (passes_append hk start after).symm

/-- The link before a hop is there as soon as the hop before passes. -/
theorem exists_linkAt (h : ∀ j < k, Passes start ps j) :
    ∃ current, linkAt start ps k = some current := by
  cases k with
  | zero => exact ⟨start, rfl⟩
  | succ k =>
    obtain ⟨_, p, next, -, hp, hleads⟩ := h k (Nat.lt_succ_self k)
    refine ⟨next, ?_⟩
    rw [linkAt, hp]
    show (Link.ofBytes p.entry.data).toOption = some next
    rw [Link.ofBytes_eq_ok_iff.mpr hleads.link.1]
    rfl

/-! ## The whole chain -/

/-- The first hop that does not pass: all hops before it lead to the link it fails for. -/
def FirstFailure (start : Link) (ps : List Proof) (e : ResolverError) : Prop :=
  ∃ before p after mid, ps = before ++ p :: after ∧ Path start before mid ∧
    p.Fails before.length mid e

/-- A link that hops lead to points at something. -/
theorem Path.isValid (h : Path start ps last) (hne : ps ≠ []) : last.isValid = true := by
  induction h with
  | nil => exact absurd rfl hne
  | @cons _ next _ _ ps hleads htail ih =>
    cases htail with
    | nil => exact hleads.link.2
    | cons hleads' htail' => exact ih nofun

/-- Of a chain that passes, only the end matters. -/
theorem verifyChain_of_path (h : Path start ps last) (hne : ps ≠ []) :
    verifyChain start ps = match last.target with
      | .ok (.data ..) => .ok last
      | _ => .error .finalLinkNotImmutable := by
  have hfollow := follow_append h 0 []
  rw [List.append_nil] at hfollow
  rw [verifyChain, if_neg (by rwa [List.isEmpty_iff]), hfollow]
  rfl

/-- A chain with a hop that does not pass is refused for it. -/
theorem verifyChain_of_firstFailure (h : FirstFailure start ps e) :
    verifyChain start ps = .error e := by
  obtain ⟨before, p, after, mid, rfl, hpath, hfails⟩ := h
  rw [verifyChain, if_neg (by simp)]
  exact follow_of_fails hpath (by rwa [Nat.zero_add]) after

/-- **A chain is empty, has a first hop that does not pass, or leads all the way.** -/
theorem chain_cases (start : Link) (ps : List Proof) :
    ps = [] ∨ (∃ e, FirstFailure start ps e) ∨ (ps ≠ [] ∧ ∃ last, Path start ps last) := by
  rcases eq_or_ne ps [] with hnil | hne
  · exact .inl hnil
  · rcases path_or_fails 0 start ps with hpath | ⟨before, p, after, mid, e, hps, hpath, hfails⟩
    · exact .inr (.inr ⟨hne, hpath⟩)
    · exact .inr (.inl ⟨e, before, p, after, mid, hps, hpath, by rwa [Nat.zero_add] at hfails⟩)

/-- An accepted chain leads to a link to data. -/
theorem verifyChain_eq_ok_iff : verifyChain start ps = .ok l ↔
    ps ≠ [] ∧ Path start ps l ∧ ∃ offset size, l.target = .ok (.data offset size) := by
  constructor
  · intro h
    rcases chain_cases start ps with rfl | ⟨e, hfail⟩ | ⟨hne, last, hpath⟩
    · cases h
    · rw [verifyChain_of_firstFailure hfail] at h
      cases h
    · rw [verifyChain_of_path hpath hne] at h
      split at h
      · rename_i offset size htarget
        cases h
        exact ⟨hne, hpath, offset, size, htarget⟩
      · cases h
  · rintro ⟨hne, hpath, offset, size, htarget⟩
    rw [verifyChain_of_path hpath hne, htarget]

/-- What a chain can be refused for. -/
theorem verifyChain_eq_error_iff : verifyChain start ps = .error e ↔
    (ps = [] ∧ e = .emptyChain) ∨ FirstFailure start ps e ∨
      (e = .finalLinkNotImmutable ∧ ps ≠ [] ∧
        ∃ last, Path start ps last ∧ last.target = .ok .entry) := by
  constructor
  · intro h
    rcases chain_cases start ps with rfl | ⟨e', hfail⟩ | ⟨hne, last, hpath⟩
    · cases h
      exact .inl ⟨rfl, rfl⟩
    · rw [verifyChain_of_firstFailure hfail] at h
      cases h
      exact .inr (.inl hfail)
    · rw [verifyChain_of_path hpath hne] at h
      obtain ⟨t, htarget⟩ := Link.isValid_iff.mp (hpath.isValid hne)
      rw [htarget] at h
      cases t with
      | data offset size => cases h
      | entry =>
        cases h
        exact .inr (.inr ⟨rfl, hne, last, hpath, htarget⟩)
  · rintro (⟨rfl, rfl⟩ | hfail | ⟨rfl, hne, last, hpath, htarget⟩)
    · rfl
    · exact verifyChain_of_firstFailure hfail
    · rw [verifyChain_of_path hpath hne, htarget]

/-- The first hop that does not pass, by its number. -/
theorem firstFailure_iff : FirstFailure start ps e ↔
    ∃ k p current, (∀ j < k, Passes start ps j) ∧ ps[k]? = some p ∧
      linkAt start ps k = some current ∧ p.Fails k current e := by
  constructor
  · rintro ⟨before, p, after, mid, rfl, hpath, hfails⟩
    obtain ⟨hpasses, hlink⟩ := (path_before_iff (p :: after)).mp hpath
    exact ⟨before.length, p, mid, hpasses, by simp, hlink, hfails⟩
  · rintro ⟨k, p, current, hpasses, hp, hlink, hfails⟩
    obtain ⟨hk, rfl⟩ := List.getElem?_eq_some_iff.mp hp
    have hps : ps = ps.take k ++ ps[k] :: ps.drop (k + 1) := by
      rw [List.getElem_cons_drop hk, List.take_append_drop]
    have hlen : (ps.take k).length = k := List.length_take_of_le (Nat.le_of_lt hk)
    refine ⟨ps.take k, ps[k], ps.drop (k + 1), current, hps, ?_, by rwa [hlen]⟩
    rw [path_before_iff (ps[k] :: ps.drop (k + 1)), ← hps, hlen]
    exact ⟨hpasses, hlink⟩

/-! ## What each refusal means -/

/-- A refusal that names a hop is the first failure, by its number. -/
theorem verifyChain_eq_hop_error_iff (e : ResolverError) (hempty : e ≠ .emptyChain)
    (hfinal : e ≠ .finalLinkNotImmutable) : verifyChain start ps = .error e ↔
      ∃ k p current, (∀ j < k, Passes start ps j) ∧ ps[k]? = some p ∧
        linkAt start ps k = some current ∧ p.Fails k current e := by
  rw [verifyChain_eq_error_iff, ← firstFailure_iff]
  constructor
  · rintro (⟨-, he⟩ | hfail | ⟨he, -⟩)
    · exact absurd he hempty
    · exact hfail
    · exact absurd he hfinal
  · exact fun hfail => .inr (.inl hfail)

theorem verifyChain_eq_emptyChain_iff : verifyChain start ps = .error .emptyChain ↔ ps = [] := by
  rw [verifyChain_eq_error_iff]
  constructor
  · rintro (⟨hnil, -⟩ | ⟨_, _, _, _, -, -, ⟨⟩⟩ | ⟨⟨⟩, -⟩)
    exact hnil
  · exact fun hnil => .inl ⟨hnil, rfl⟩

theorem verifyChain_eq_invalidLink_iff {source : LinkError} :
    verifyChain start ps = .error (.invalidLink k source) ↔
      (∀ j < k, Passes start ps j) ∧ ∃ p, ps[k]? = some p ∧ p.LinkFault source := by
  rw [verifyChain_eq_hop_error_iff (.invalidLink k source) nofun nofun]
  constructor
  · rintro ⟨_, p, _, hpasses, hp, -, ⟨hfault⟩⟩
    exact ⟨hpasses, p, hp, hfault⟩
  · rintro ⟨hpasses, p, hp, hfault⟩
    -- No check of this hop reads the link before it, but the hop before passes, so there is one.
    obtain ⟨current, hlink⟩ := exists_linkAt hpasses
    exact ⟨k, p, current, hpasses, hp, hlink, .link hfault⟩

theorem verifyChain_eq_entryIdMismatch_iff :
    verifyChain start ps = .error (.entryIdMismatch k) ↔
      (∀ j < k, Passes start ps j) ∧ ∃ p current next, ps[k]? = some p ∧
        linkAt start ps k = some current ∧ p.HoldsLink next ∧ ¬ p.Named current := by
  rw [verifyChain_eq_hop_error_iff (.entryIdMismatch k) nofun nofun]
  constructor
  · rintro ⟨_, p, current, hpasses, hp, hlink, ⟨⟩⟩
    rename_i next hholds hname
    exact ⟨hpasses, p, current, next, hp, hlink, hholds, hname⟩
  · rintro ⟨hpasses, p, current, next, hp, hlink, hholds, hname⟩
    exact ⟨k, p, current, hpasses, hp, hlink, .name hholds hname⟩

theorem verifyChain_eq_badSignature_iff :
    verifyChain start ps = .error (.badSignature k) ↔
      (∀ j < k, Passes start ps j) ∧ ∃ p current next, ps[k]? = some p ∧
        linkAt start ps k = some current ∧ p.HoldsLink next ∧ p.Named current ∧ ¬ p.Signed := by
  rw [verifyChain_eq_hop_error_iff (.badSignature k) nofun nofun]
  constructor
  · rintro ⟨_, p, current, hpasses, hp, hlink, ⟨⟩⟩
    rename_i next hholds hname hsigned
    exact ⟨hpasses, p, current, next, hp, hlink, hholds, hname, hsigned⟩
  · rintro ⟨hpasses, p, current, next, hp, hlink, hholds, hname, hsigned⟩
    exact ⟨k, p, current, hpasses, hp, hlink, .signature hholds hname hsigned⟩

theorem verifyChain_eq_finalLinkNotImmutable_iff :
    verifyChain start ps = .error .finalLinkNotImmutable ↔
      ps ≠ [] ∧ (∀ k < ps.length, Passes start ps k) ∧
        ∃ l, linkAt start ps ps.length = some l ∧ l.target = .ok .entry := by
  rw [verifyChain_eq_error_iff]
  constructor
  · rintro (⟨-, ⟨⟩⟩ | ⟨_, _, _, _, -, -, ⟨⟩⟩ | ⟨-, hne, l, hpath, htarget⟩)
    obtain ⟨hpasses, hlink⟩ := path_iff.mp hpath
    exact ⟨hne, hpasses, l, hlink, htarget⟩
  · rintro ⟨hne, hpasses, l, hlink, htarget⟩
    exact .inr (.inr ⟨rfl, hne, l, path_iff.mpr ⟨hpasses, hlink⟩, htarget⟩)

/-- **What becomes of a chain**, for every start and every list of hops. With `linkAt` for the link
before a hop, a chain is accepted exactly if it is not empty, every hop passes its three checks and
the last link is one to data. A refusal names the first hop that does not pass and the first check
that it fails, whatever the hops after it hold; there is no other refusal than that, for an empty
chain, and for one that ends on a link to an entry. -/
theorem verifyChain_outcome (start : Link) (ps : List Proof) :
    (∀ l, verifyChain start ps = .ok l ↔
      ps ≠ [] ∧ (∀ k < ps.length, Passes start ps k) ∧ linkAt start ps ps.length = some l ∧
        ∃ offset size, l.target = .ok (.data offset size)) ∧
    (verifyChain start ps = .error .emptyChain ↔ ps = []) ∧
    (∀ k source, verifyChain start ps = .error (.invalidLink k source) ↔
      (∀ j < k, Passes start ps j) ∧ ∃ p, ps[k]? = some p ∧ p.LinkFault source) ∧
    (∀ k, verifyChain start ps = .error (.entryIdMismatch k) ↔
      (∀ j < k, Passes start ps j) ∧ ∃ p current next, ps[k]? = some p ∧
        linkAt start ps k = some current ∧ p.HoldsLink next ∧ ¬ p.Named current) ∧
    (∀ k, verifyChain start ps = .error (.badSignature k) ↔
      (∀ j < k, Passes start ps j) ∧ ∃ p current next, ps[k]? = some p ∧
        linkAt start ps k = some current ∧ p.HoldsLink next ∧ p.Named current ∧ ¬ p.Signed) ∧
    (verifyChain start ps = .error .finalLinkNotImmutable ↔
      ps ≠ [] ∧ (∀ k < ps.length, Passes start ps k) ∧
        ∃ l, linkAt start ps ps.length = some l ∧ l.target = .ok .entry) := by
  refine ⟨fun l => ?_, verifyChain_eq_emptyChain_iff,
    fun k source => verifyChain_eq_invalidLink_iff,
    fun k => verifyChain_eq_entryIdMismatch_iff, fun k => verifyChain_eq_badSignature_iff,
    verifyChain_eq_finalLinkNotImmutable_iff⟩
  rw [verifyChain_eq_ok_iff, path_iff, and_assoc]

end Trustless.Resolution
