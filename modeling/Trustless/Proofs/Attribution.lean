import Trustless.Proofs.Download
import Trustless.Proofs.Resolution.Chain
import Trustless.Proofs.Resolution.Proof

/-!
# Whose fault a failure is

A response is authenticated in two steps: the hops in its header lead from the requested link to one
to data, and its body is proved against the root in that link. A failure before that should be the
portal's fault, since whoever answers decides what comes back, and one after that never is.

There is one failure for which this does not hold. Hops are read before their signatures are
checked, and a hop that says it is of the type with the owner's key is not held against the portal.

* `ResolvesTo`, `FullyAuthenticated`: what it means that a response is authenticated.
* `verify_of_resolvesTo`: a response for a link to an entry is checked like one for the link to data
  behind it.
* `locate_cases`: what resolving the requested link comes to.
* `settled_iff`: which responses are settled.
* `attribution_sound_iff`: when every unauthenticated response is the portal's fault.
-/

namespace Trustless.Download

open Json (Value)
open Resolution (Proof verifyChain)

variable {requested link : Link} {offset size : Nat} {body : ByteArray} {header : Option String}
  {text : String} {e : DownloadError}

/-- The link to data that a response to the request for a link is checked against. It is the link
itself, or the one that the hops in the header are accepted to lead to. -/
inductive ResolvesTo (requested : Link) (header : Option String) : Link → Prop
  | data {offset size : Nat} :
      requested.target = .ok (.data offset size) → ResolvesTo requested header requested
  | entry {text : String} {ps : List Proof} {link : Link} :
      requested.target = .ok .entry → header = some text → Proof.parseAll text = .ok ps →
        verifyChain requested ps = .ok link → ResolvesTo requested header link

/-- The header leads to a link to data, and the body is proved against it. -/
def FullyAuthenticated (requested : Link) (header : Option String) (body : ByteArray) : Prop :=
  ∃ link offset size, ResolvesTo requested header link ∧ link.target = .ok (.data offset size) ∧
    Authenticated link offset size body

/-- The header for a link to an entry has a hop of the type with the owner's key. -/
def UnsupportedHeader (requested : Link) (header : Option String) : Prop :=
  requested.target = .ok .entry ∧ ∃ text hop, header = some text ∧ Proof.Unsupported text hop

/-! ## Resolving the requested link -/

/-- What is resolved points at data. -/
theorem ResolvesTo.target (h : ResolvesTo requested header link) :
    ∃ offset size, link.target = .ok (.data offset size) := by
  cases h with
  | data htarget => exact ⟨_, _, htarget⟩
  | entry _ _ _ hchain => exact (Resolution.verifyChain_eq_ok_iff.mp hchain).2.2

/-- A link to an entry is resolved by the hops in the header. -/
theorem locate_entry (h : requested.target = .ok .entry) (text : String) :
    locate requested (some text) =
      ((Resolution.resolve requested text).mapError .resolver >>= fun link =>
        (link.target.mapError fun e => .resolver (.invalidLink 0 e)) >>= fun t =>
          .ok (link, t)) := by
  unfold locate
  rw [h]
  rfl

theorem locate_of_resolvesTo (h : ResolvesTo requested header link)
    (ht : link.target = .ok (.data offset size)) :
    locate requested header = .ok (link, .data offset size) := by
  cases h with
  | data => exact locate_data ht header
  | @entry text ps _ hentry hheader hread hchain =>
    have hresolve : Resolution.resolve requested text = .ok link := by
      unfold Resolution.resolve
      rw [hread]
      exact hchain
    rw [hheader, locate_entry hentry, hresolve]
    show (link.target.mapError (fun e => DownloadError.resolver (.invalidLink 0 e)) >>= _) = _
    rw [ht]
    rfl

/-- Resolving fails as reading or checking the hops does. -/
theorem locate_of_resolve_error {source : ResolverError} (h : requested.target = .ok .entry)
    (hresolve : Resolution.resolve requested text = .error source) :
    locate requested (some text) = .error (.resolver source) := by
  rw [locate_entry h, hresolve]
  rfl

/-- Only the type of a hop is not held against the portal. -/
theorem portalFault_resolver {source : ResolverError}
    (h : ∀ hop type, source ≠ .unsupportedEntryType hop type) :
    (DownloadError.resolver source).portalFault = true := by
  cases source with
  | unsupportedEntryType hop type => exact absurd rfl (h hop type)
  | _ => rfl

/-- The checks of hops do not ask for their type. -/
theorem verifyChain_ne_unsupported (start : Link) (ps : List Proof) (hop type : Nat) :
    verifyChain start ps ≠ .error (.unsupportedEntryType hop type) := by
  intro h
  rcases Resolution.verifyChain_eq_error_iff.mp h with
    ⟨-, ⟨⟩⟩ | ⟨_, _, _, _, -, -, hfails⟩ | ⟨⟨⟩, -⟩
  cases hfails

/-- What resolving through a header comes to. -/
theorem resolve_cases (start : Link) (text : String) :
    (∃ ps link, Proof.parseAll text = .ok ps ∧ verifyChain start ps = .ok link) ∨
      (∃ source, Resolution.resolve start text = .error source ∧
        (DownloadError.resolver source).portalFault = true) ∨
      ∃ hop, Proof.Unsupported text hop := by
  unfold Resolution.resolve
  cases hread : Proof.parseAll text with
  | error source =>
    by_cases hu : ∃ hop, Proof.Unsupported text hop
    · exact .inr (.inr hu)
    · refine .inr (.inl ⟨source, rfl, portalFault_resolver fun hop type hsource => hu ⟨hop, ?_⟩⟩)
      exact (Proof.parseAll_eq_unsupported_iff.mp (hsource ▸ hread)).1
  | ok ps =>
    cases hchain : verifyChain start ps with
    | ok link => exact .inl ⟨ps, link, rfl, hchain⟩
    | error source =>
      refine .inr (.inl ⟨source, hchain, portalFault_resolver fun hop type hsource => ?_⟩)
      exact verifyChain_ne_unsupported start ps hop type (hsource ▸ hchain)

theorem locate_of_unsupported {hop : Nat} (h : requested.target = .ok .entry)
    (hu : Proof.Unsupported text hop) : locate requested (some text)
      = .error (.resolver (.unsupportedEntryType hop Registry.typeWithKey)) := by
  refine locate_of_resolve_error h ?_
  unfold Resolution.resolve
  rw [Proof.parseAll_eq_unsupported_iff.mpr ⟨hu, rfl⟩]
  rfl

/-- **What resolving a link comes to**: a link to data, a failure that is the portal's fault, or a
hop of the type with the owner's key. -/
theorem locate_cases (hvalid : requested.isValid = true) (header : Option String) :
    (∃ link, ResolvesTo requested header link) ∨
      (∃ e, locate requested header = .error e ∧ e.portalFault = true) ∨
      UnsupportedHeader requested header := by
  obtain ⟨t, htarget⟩ := Link.isValid_iff.mp hvalid
  cases t with
  | data offset size => exact .inl ⟨requested, .data htarget⟩
  | entry =>
    cases header with
    | none =>
      refine .inr (.inl ⟨.missingProof, ?_, rfl⟩)
      unfold locate
      rw [htarget]
      rfl
    | some text =>
      rcases resolve_cases requested text with
        ⟨ps, link, hread, hchain⟩ | ⟨source, hresolve, hfault⟩ | ⟨hop, hu⟩
      · exact .inl ⟨link, .entry htarget rfl hread hchain⟩
      · exact .inr (.inl ⟨_, locate_of_resolve_error htarget hresolve, hfault⟩)
      · exact .inr (.inr ⟨htarget, text, hop, rfl, hu⟩)

/-! ## The whole response -/

theorem verify_of_locate_error (h : locate requested header = .error e) (body : ByteArray) :
    verify body requested header = .error e := by
  unfold verify
  rw [h]
  rfl

/-- **A response is checked like one for the link to data behind the requested one.** -/
theorem verify_of_resolvesTo (h : ResolvesTo requested header link) (body : ByteArray) :
    verify body requested header = verify body link none := by
  obtain ⟨offset, size, ht⟩ := h.target
  unfold verify
  rw [locate_of_resolvesTo h ht, locate_data ht]

/-- **Which responses are settled**: the authenticated ones, and all whose header has a hop of the
type with the owner's key. -/
theorem settled_iff (hvalid : requested.isValid = true) (header : Option String)
    (body : ByteArray) : Settled (verify body requested header) ↔
      FullyAuthenticated requested header body ∨ UnsupportedHeader requested header := by
  constructor
  · intro hsettled
    rcases locate_cases hvalid header with ⟨link, hlink⟩ | ⟨e, hlocate, hfault⟩ | hu
    · obtain ⟨offset, size, ht⟩ := hlink.target
      rw [verify_of_resolvesTo hlink, settled_iff_authenticated ht] at hsettled
      exact .inl ⟨link, offset, size, hlink, ht, hsettled⟩
    · rw [hsettled e (verify_of_locate_error hlocate body)] at hfault
      cases hfault
    · exact .inr hu
  · rintro (⟨link, offset, size, hlink, ht, hauthenticated⟩ | ⟨hentry, text, hop, rfl, hu⟩)
    · rw [verify_of_resolvesTo hlink, settled_iff_authenticated ht]
      exact hauthenticated
    · rw [verify_of_locate_error (locate_of_unsupported hentry hu)]
      rintro e ⟨⟩
      rfl

/-- What is refused for the type of a hop is not authenticated. -/
theorem not_fullyAuthenticated (h : UnsupportedHeader requested header) (body : ByteArray) :
    ¬ FullyAuthenticated requested header body := by
  obtain ⟨hentry, text, hop, rfl, hu⟩ := h
  rintro ⟨link, offset, size, hlink, ht, -⟩
  have hlocate := locate_of_resolvesTo hlink ht
  rw [locate_of_unsupported hentry hu] at hlocate
  cases hlocate

/-- **When every unauthenticated response is the portal's fault.** For a requested link and a
header, each failure that is not blamed on the portal comes from an authenticated response, whatever
the body, exactly if the link is not one to an entry with a header that has a hop of the type with
the owner's key. Nothing signs what a hop says its type is. -/
theorem attribution_sound_iff (requested : Link) (header : Option String) :
    (requested.isValid = true → ∀ body e, verify body requested header = .error e →
      e.portalFault = false → FullyAuthenticated requested header body) ↔
      ¬ UnsupportedHeader requested header := by
  constructor
  · intro hsound hu
    have hentry := hu.1
    obtain ⟨-, text, hop, rfl, hhop⟩ := hu
    have hverify := verify_of_locate_error (locate_of_unsupported hentry hhop) .empty
    have hvalid : requested.isValid = true := Link.isValid_iff.mpr ⟨_, hentry⟩
    exact not_fullyAuthenticated ⟨hentry, text, hop, rfl, hhop⟩ _ (hsound hvalid _ _ hverify rfl)
  · intro hsupported hvalid body e hverify hfault
    have hsettled : Settled (verify body requested header) := by
      rw [hverify]
      rintro e' ⟨⟩
      exact hfault
    exact ((settled_iff hvalid header body).mp hsettled).resolve_right hsupported

/-- A hop that holds nothing but its type is blamed on the content, without any signature. -/
theorem unsigned_type_blames_content :
    (Link.toEntry (.zero 32)).isValid = true ∧
    verify .empty (Link.toEntry (.zero 32)) (some "[\x7b\"type\":2\x7d]")
      = .error (.resolver (.unsupportedEntryType 0 2)) ∧
    (DownloadError.resolver (.unsupportedEntryType 0 2)).portalFault = false ∧
    ¬ FullyAuthenticated (Link.toEntry (.zero 32)) (some "[\x7b\"type\":2\x7d]") .empty := by
  have hentry := Link.target_toEntry (.zero 32)
  have hparse : Value.parse? "[\x7b\"type\":2\x7d]"
      = some (.array [.object [("type", .nat 2)]]) := rfl
  have hu : Proof.Unsupported "[\x7b\"type\":2\x7d]" 0 := ⟨_, hparse, .here ⟨rfl, rfl⟩⟩
  refine ⟨Link.isValid_iff.mpr ⟨_, hentry⟩, ?_, rfl, ?_⟩
  · exact verify_of_locate_error (locate_of_unsupported hentry hu) .empty
  · exact not_fullyAuthenticated ⟨hentry, _, _, rfl, hu⟩ .empty

end Trustless.Download
