import Trustless.Proofs.Skyfile.BaseSector

/-!
# What building a sector comes to

Metadata that is written here has a name and a length and nothing else, so that of all checks of
metadata only the one of the name can refuse it. What then fits into a sector has a root and a link.
Two reasons for a refusal are left, a name that is no clean relative path and a file that does not
fit, and the name is looked at first.

* `Path.check_cases`: a path is clean, or the refusal names the path and its fault.
* `Metadata.check_toValue`: the checks of metadata that is written here.
* `BaseSector.build_of_check_error`, `BaseSector.build_of_too_large`, `BaseSector.build_of_fits`: the
  three outcomes.
* `BaseSector.build_outcome`: all of it, for every file and metadata.
-/

namespace Trustless.Skyfile

open Json (Value)

/-- A path is clean, or the refusal names it and its fault. -/
theorem Path.check_cases (path : String) :
    check path = .ok () ∨ ∃ fault, check path = .error (.invalidPath path fault) := by
  unfold check
  cases fault? path.toList with
  | none => exact .inl rfl
  | some fault => exact .inr ⟨fault, rfl⟩

namespace Metadata

/-- The bytes of metadata in a sector. -/
def json (m : Metadata) : ByteArray :=
  Bytes.ofString m.toValue.compact

/-- Metadata that is written here can only be refused for its name. -/
theorem check_toValue (m : Metadata) : check m.toValue = Path.check m.filename := by
  unfold check
  simp [toValue, Value.isObject, Value.field?, List.lookup_cons, Value.asString?]

/-- Metadata with a clean name is written. -/
theorem encode_of_check {m : Metadata} (h : Path.check m.filename = .ok ()) :
    m.encode = .ok m.toValue.compact :=
  encode_eq_ok_iff.mpr ⟨(check_toValue m).trans h, rfl⟩

end Metadata

namespace BaseSector

variable {file : ByteArray} {m : Metadata} {base : BaseSector} {e : SkyfileError}

/-- The bytes of layout, metadata and file. -/
def total (file : ByteArray) (m : Metadata) : Nat :=
  layoutSize + m.json.size + file.size

/-! ## The three outcomes -/

/-- A name that is refused is all that is looked at. -/
theorem build_of_check_error (h : Path.check m.filename = .error e) : build file m = .error e := by
  have hencode : m.encode = .error e := by
    unfold Metadata.encode
    rw [Metadata.check_toValue, h]
    rfl
  unfold build
  rw [hencode]
  rfl

/-- What does not fit is refused by its size. -/
theorem build_of_too_large (h : Path.check m.filename = .ok ())
    (hlarge : Sector.size < total file m) : build file m = .error (.tooLarge (total file m)) := by
  unfold build
  rw [Metadata.encode_of_check h]
  exact if_pos hlarge

/-- **What fits is built**: layout, metadata, file and zeros in a row, with a link to their root. -/
theorem build_of_fits (h : Path.check m.filename = .ok ()) (hfit : total file m ≤ Sector.size) :
    ∃ base, build file m = .ok base :=
  exists_build file (Metadata.encode_of_check h) hfit

/-- The three outcomes are all there are. -/
theorem build_cases (file : ByteArray) (m : Metadata) :
    (∃ fault, Path.check m.filename = .error (.invalidPath m.filename fault) ∧
      build file m = .error (.invalidPath m.filename fault)) ∨
    (Path.check m.filename = .ok () ∧ Sector.size < total file m ∧
      build file m = .error (.tooLarge (total file m))) ∨
    (Path.check m.filename = .ok () ∧ total file m ≤ Sector.size ∧
      ∃ base, build file m = .ok base) := by
  obtain hpath | ⟨fault, hpath⟩ := Path.check_cases m.filename
  · obtain hlarge | hfit := Nat.lt_or_ge Sector.size (total file m)
    · exact .inr (.inl ⟨hpath, hlarge, build_of_too_large hpath hlarge⟩)
    · exact .inr (.inr ⟨hpath, hfit, build_of_fits hpath hfit⟩)
  · exact .inl ⟨fault, hpath, build_of_check_error hpath⟩

/-! ## What is built -/

/-- What a sector that was built consists of. -/
structure Holds (file : ByteArray) (m : Metadata) (base : BaseSector) : Prop where
  size : base.sector.size = Sector.size
  /-- The parts are in a row, and the rest is zeros. -/
  parts : base.sector =
    (Layout.plaintext file.size.toUInt64 m.json.size.toUInt64).encode.toByteArray
      ++ m.json ++ file ++ Bytes.zeros (Sector.size - total file m)
  used : base.usedSize = total file m
  root : Hasher.blake2b.merkleRoot base.sector = .ok base.link.root

theorem holds_of_build (h : build file m = .ok base) : Holds file m base := by
  obtain ⟨json, hjson, hused, hfit, hsector, root, hroot, hlink⟩ := build_spec h
  obtain ⟨-, rfl⟩ := Metadata.encode_eq_ok_iff.mp hjson
  obtain ⟨covered, -, -, rfl⟩ := Link.target_of_toData hlink
  rw [hused] at hfit
  refine ⟨?_, hsector, hused, hroot⟩
  rw [hsector]
  exact size_fill hfit

/-- What building the sector of a file comes to. -/
structure BuildOutcome (file : ByteArray) (m : Metadata) : Prop where
  /-- A sector is built exactly for a clean name and for what fits. -/
  built : (∃ base, build file m = .ok base) ↔
    Path.check m.filename = .ok () ∧ total file m ≤ Sector.size
  /-- A refused name is reported, whatever the size of the file. -/
  invalidPath : ∀ path fault, build file m = .error (.invalidPath path fault) ↔
    Path.check m.filename = .error (.invalidPath path fault)
  /-- What does not fit is reported with its size, if the name is clean. -/
  tooLarge : ∀ size, build file m = .error (.tooLarge size) ↔
    Path.check m.filename = .ok () ∧ Sector.size < total file m ∧ size = total file m
  /-- Nothing else is reported. -/
  only : ∀ e, build file m = .error e →
    (∃ fault, e = .invalidPath m.filename fault) ∨ e = .tooLarge (total file m)
  /-- What is built has no gap. -/
  holds : ∀ base, build file m = .ok base → Holds file m base

/-- **A sector is built for exactly what fits, and it has no gap.** For every file and metadata, either
the name is no clean relative path, and that is reported; or layout, metadata and file are longer than
a sector, and their size is reported; or the sector is built, and it consists of these three and of
zeros, with a link to its root. -/
theorem build_outcome (file : ByteArray) (m : Metadata) : BuildOutcome file m := by
  obtain ⟨fault, hpath, hbuild⟩ | ⟨hpath, hlarge, hbuild⟩ | ⟨hpath, hfit, base, hbuild⟩ :=
    build_cases file m
  -- In each case the outcome is known, and every field is read off it.
  · refine ⟨?_, ?_, ?_, ?_, fun _ => holds_of_build⟩ <;> simp [hpath, hbuild]
  · refine ⟨?_, ?_, ?_, ?_, fun _ => holds_of_build⟩ <;> simp [hpath, hbuild, hlarge, eq_comm]
  · refine ⟨?_, ?_, ?_, ?_, fun _ => holds_of_build⟩ <;> simp [hpath, hbuild, hfit]

end BaseSector

end Trustless.Skyfile
