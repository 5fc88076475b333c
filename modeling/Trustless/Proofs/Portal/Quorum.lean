import Mathlib.Data.Finset.Card
import Trustless.Proofs.Key
import Trustless.Proofs.Portal.Lookup

/-!
# Reports of a missing entry, one from each portal

What a read counts are places in the list of portals. A portal that stands in the list twice is asked
twice and is counted twice, so that its two reports reach a quorum of two.

* `reporters`, `card_reporters_of_nodup`: the portals that answered with a status, each of them once.
* `Client.missing_independent_iff`: a missing entry is believed on the word of as many portals as the
  settings say exactly if no portal stands in the list twice.
* `Client.repeated_portal_believed`: a list of two portals in which one of them is believed alone.
-/

namespace Trustless.Portal

variable {vs : List Visit} {status : Nat}

/-- The portals that answered with a status, each of them once. -/
def reporters (status : Nat) (vs : List Visit) : Finset String :=
  ((vs.filter fun v => v.status? == some status).map Visit.portal).toFinset

/-- If no portal is asked twice, the answers with a status are from as many portals. -/
theorem card_reporters_of_nodup (h : (vs.map Visit.portal).Nodup) :
    (reporters status vs).card = answersWith status vs := by
  have hreporters : ((vs.filter fun v => v.status? == some status).map Visit.portal).Nodup :=
    h.sublist (List.filter_sublist.map _)
  rw [reporters, List.toFinset_card_of_nodup hreporters, List.length_map, answersWith,
    List.countP_eq_length_filter]

/-- As many portals as the settings say report a missing entry, and none of them was asked twice. -/
structure Independent (config : Config) (vs : List Visit) (asked : List Asked) : Prop where
  quorum : max 1 (min config.notFoundQuorum config.portals.toFinset.card) ≤ (reporters 404 vs).card
  once : (asked.map Asked.portal).Nodup

namespace Client

variable {σ : Type} {c : Client σ} {owner : PublicKey} {dataKey : ByteVector 32} {s : σ}

/-- **A missing entry is believed on independent reports exactly if no portal stands in the list
twice.** In any case the portals are all asked, place by place. -/
theorem missing_independent_iff
    (h : ((c.recorded.readEntry owner dataKey).run (s, [])).1 = .ok none) :
    ((c.recorded.readEntry owner dataKey).run (s, [])).2.2
        = sentTo (readRequest owner dataKey) c.config.portals ∧
      (Independent c.config (c.readAnswers owner dataKey s)
        ((c.recorded.readEntry owner dataKey).run (s, [])).2.2 ↔ c.config.portals.Nodup) := by
  obtain ⟨-, hno, hquorum⟩ := readEntry_eq_missing_iff.mp h
  rw [readAnswers_recorded] at hno hquorum
  have hasked : ((c.recorded.readEntry owner dataKey).run (s, [])).2.2
      = sentTo (readRequest owner dataKey) c.config.portals := asked_of_noEntry hno []
  have honce : (((c.recorded.readEntry owner dataKey).run (s, [])).2.2.map Asked.portal)
      = c.config.portals := by
    rw [hasked, map_portal_sentTo]
  refine ⟨hasked, fun hindependent => honce ▸ hindependent.once, fun hnodup => ⟨?_, ?_⟩⟩
  · have hportals : ((c.readAnswers owner dataKey s).map Visit.portal).Nodup := by
      rw [readAnswers, Transport.map_portal_visits]
      exact hnodup
    rw [card_reporters_of_nodup hportals, List.toFinset_card_of_nodup hnodup]
    exact hquorum
  · rw [honce]
    exact hnodup

/-- Two portals that do not have the entry. -/
theorem missing_independent_two_portals :
    ∃ c : Client Unit, c.config.portals = ["a", "b"] ∧
      ((c.recorded.readEntry Keypair.zero.publicKey (.zero 32)).run ((), [])).1 = .ok none ∧
      Independent c.config (c.readAnswers Keypair.zero.publicKey (.zero 32) ())
        ((c.recorded.readEntry Keypair.zero.publicKey (.zero 32)).run ((), [])).2.2 := by
  let c : Client Unit := ⟨.steady fun _ => .ok ⟨404, [], .empty⟩, { portals := ["a", "b"] }⟩
  have h : ((c.recorded.readEntry Keypair.zero.publicKey (.zero 32)).run ((), [])).1 = .ok none :=
    rfl
  exact ⟨c, rfl, h, (missing_independent_iff h).2.mpr (by decide)⟩

/-- One portal stands in the list twice and is believed alone, with a quorum of two and another
portal that did not say so. -/
theorem repeated_portal_believed :
    ∃ c : Client Unit, c.config.portals = ["a", "a", "b"] ∧ c.config.notFoundQuorum = 2 ∧
      c.config.portals.toFinset.card = 2 ∧
      ((c.recorded.readEntry Keypair.zero.publicKey (.zero 32)).run ((), [])).1 = .ok none ∧
      reporters 404 (c.readAnswers Keypair.zero.publicKey (.zero 32) ()) = {"a"} ∧
      ((c.recorded.readEntry Keypair.zero.publicKey (.zero 32)).run ((), [])).2.2.map Asked.portal
        = ["a", "a", "b"] ∧
      ¬ Independent c.config (c.readAnswers Keypair.zero.publicKey (.zero 32) ())
        ((c.recorded.readEntry Keypair.zero.publicKey (.zero 32)).run ((), [])).2.2 := by
  let c : Client Unit := ⟨.steady fun portal =>
    .ok ⟨if portal = "a" then 404 else 500, [], .empty⟩, { portals := ["a", "a", "b"] }⟩
  have hreporters :
      reporters 404 (c.readAnswers Keypair.zero.publicKey (.zero 32) ()) = {"a"} := rfl
  refine ⟨c, rfl, rfl, rfl, rfl, hreporters, rfl, fun hindependent => ?_⟩
  have hquorum := hindependent.quorum
  rw [hreporters] at hquorum
  exact absurd hquorum (by decide)

end Client

end Trustless.Portal
