/-!
# Settings for talking to portals

The order of the portals matters: the first is always asked first. That something does not exist is
believed only on enough reports, one from each place in the list of portals.

* `Config.one_le_effectiveQuorum`, `Config.effectiveQuorum_le_length`: one report is always needed,
  and never more than there are portals.
-/

namespace Trustless.Portal

/-- The portals asked when none are given. -/
def defaultPortals : List String := ["siasky.net", "eu-ger-12.siasky.net", "skynetfree.net"]

/-- The name and version of this program. -/
def version : String := "0.1.0"

/-- How a client talks to portals. -/
structure Config where
  /-- The portals in the order in which they are asked. -/
  portals : List String := defaultPortals
  /-- How many reports of a missing entry it takes before it is believed. -/
  notFoundQuorum : Nat := 2
  /-- How long one request may take, in milliseconds. -/
  timeoutMs : Nat := 30000
  /-- What the client calls itself. -/
  userAgent : String := s!"skytrust/{version}"
deriving DecidableEq, Repr

namespace Config

/-- How many reports of a missing entry are needed with the portals there are: at least one, and at
most one from each place in their list. -/
def effectiveQuorum (c : Config) : Nat :=
  max 1 (min c.notFoundQuorum c.portals.length)

theorem one_le_effectiveQuorum (c : Config) : 1 ≤ c.effectiveQuorum :=
  Nat.le_max_left ..

theorem effectiveQuorum_le_length (c : Config) (h : c.portals ≠ []) :
    c.effectiveQuorum ≤ c.portals.length := by
  have := List.length_pos_iff.mpr h
  unfold effectiveQuorum
  omega

end Config

end Trustless.Portal
