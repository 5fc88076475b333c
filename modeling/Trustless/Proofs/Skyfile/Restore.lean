import Trustless.Proofs.Encoding.Spelling
import Trustless.Proofs.Skyfile.Build
import Trustless.Proofs.Skyfile.Commitment

/-!
# A request that restores a sector describes itself

In front of the sector stand three texts, each behind its length: a title, a version and the link. A
reader that knows nothing but that there are three of them finds where they end. Every link is written
with 46 letters, so that this is always at the same place, and the sector behind it has the root that
the link holds.

* `Bytes.takePrefixed`, `Bytes.takeAllPrefixed`: reading byte strings behind their lengths.
* `Bytes.takeAllPrefixed_putPrefixed`: they are read back, and what follows them is left.
* `size_restoreHead`, `takeAllPrefixed_restoreHead`: the three texts of a request.
* `restoreBody_inj`: a request tells the link and the sector.
* `restoreBody_describes`: all of it, for the sectors that are built.
-/

namespace Trustless

namespace Bytes

variable {part : ByteArray} {parts : List ByteArray}

/-! ## Byte strings behind their lengths -/

/-- The byte string behind its length at the start of others, and what follows it. -/
def takePrefixed (b : ByteArray) : Except EncodingError (ByteArray × ByteArray) := do
  let length ← decodeU64 (b.extract 0 8)
  let next := 8 + length.toNat
  if next ≤ b.size then return (b.extract 8 next, b.extract next b.size)
  else throw (.wrongLength next b.size)

/-- As many byte strings as asked for, each behind its length, and what follows them. -/
def takeAllPrefixed : Nat → ByteArray → Except EncodingError (List ByteArray × ByteArray)
  | 0, b => .ok ([], b)
  | n + 1, b => do
    let (part, rest) ← takePrefixed b
    let (parts, rest) ← takeAllPrefixed n rest
    return (part :: parts, rest)

/-- Byte strings, each behind its length, in front of others. -/
def putPrefixed (parts : List ByteArray) (rest : ByteArray) : ByteArray :=
  parts.foldr (fun part b => lengthPrefixed part ++ b) rest

/-- **A byte string is read back from behind its length**, and what follows it is left. -/
theorem takePrefixed_append (h : part.size < UInt64.size) (rest : ByteArray) :
    takePrefixed (lengthPrefixed part ++ rest) = .ok (part, rest) := by
  have hlength : (ofU64 part.size.toUInt64).toByteArray.size = 8 := ByteVector.size_eq _
  have hhead : (lengthPrefixed part ++ rest).extract 0 8
      = (ofU64 part.size.toUInt64).toByteArray := by
    rw [lengthPrefixed, ByteArray.append_assoc, ByteArray.extract_append_eq_left hlength.symm]
  have hdecode : decodeU64 (ofU64 part.size.toUInt64).toByteArray = .ok part.size.toUInt64 := by
    rw [decodeU64, if_pos hlength, u64_ofU64]
  have hsize : (lengthPrefixed part ++ rest).size = 8 + part.size + rest.size := by
    rw [ByteArray.size_append, size_lengthPrefixed]
  have hpart : (lengthPrefixed part ++ rest).extract (8 + 0) (8 + part.size) = part := by
    rw [lengthPrefixed, ByteArray.append_assoc, ByteArray.extract_append_size_add' hlength.symm,
      ByteArray.extract_append_eq_left rfl]
  have hrest : (lengthPrefixed part ++ rest).extract (8 + part.size)
      (lengthPrefixed part ++ rest).size = rest := by
    rw [hsize, ByteArray.extract_append_eq_right (size_lengthPrefixed part).symm]
    rw [size_lengthPrefixed]
  have hnat : part.size.toUInt64.toNat = part.size := UInt64.toNat_ofNat_of_lt' h
  unfold takePrefixed
  rw [hhead, hdecode]
  dsimp only [bind, Except.bind]
  rw [hnat, if_pos (by rw [hsize]; exact Nat.le_add_right _ _), hrest]
  exact congrArg (fun b => Except.ok (b, rest)) hpart

/-- **Byte strings are read back one after the other**, and what follows them is left. -/
theorem takeAllPrefixed_putPrefixed (h : ∀ part ∈ parts, part.size < UInt64.size)
    (rest : ByteArray) : takeAllPrefixed parts.length (putPrefixed parts rest) = .ok (parts, rest) := by
  induction parts with
  | nil => rfl
  | cons part parts ih =>
    obtain ⟨hpart, hparts⟩ := List.forall_mem_cons.mp h
    rw [putPrefixed, List.foldr_cons, ← putPrefixed, List.length_cons, takeAllPrefixed,
      takePrefixed_append hpart]
    dsimp only [bind, Except.bind]
    rw [ih hparts]
    rfl

end Bytes

namespace Skyfile.BaseSector

open Bytes (takeAllPrefixed putPrefixed)

variable {file file' : ByteArray} {m m' : Metadata} {base base' : BaseSector}

/-! ## The texts of a request -/

/-- The title, the version and the link of a request. -/
def restoreTexts (link : Link) : List ByteArray :=
  [Bytes.ofString "Skyfile Backup\n", Bytes.ofString "v1.5.5\n", Bytes.ofString link.toText]

theorem restoreHead_append (link : Link) (rest : ByteArray) :
    restoreHead link ++ rest = putPrefixed (restoreTexts link) rest := by
  simp only [restoreHead, ByteArray.append_assoc]
  rfl

theorem size_restoreHead (link : Link) : (restoreHead link).size = 92 := by
  have htitle : (Bytes.ofString restoreTitle).size = 15 := by decide
  have hversion : (Bytes.ofString restoreVersion).size = 7 := by decide
  simp only [restoreHead, ByteArray.size_append, Bytes.size_lengthPrefixed, htitle, hversion,
    Link.size_toText]

/-- The three texts are read back from a head, whatever follows it. -/
theorem takeAllPrefixed_restoreHead (link : Link) (rest : ByteArray) :
    takeAllPrefixed 3 (restoreHead link ++ rest) = .ok (restoreTexts link, rest) := by
  have hsizes : ∀ text ∈ restoreTexts link, text.size < UInt64.size := by
    refine List.forall_mem_cons.mpr ⟨by decide, List.forall_mem_cons.mpr ⟨by decide, ?_⟩⟩
    rw [List.forall_mem_singleton, Link.size_toText]
    decide
  rw [restoreHead_append]
  exact Bytes.takeAllPrefixed_putPrefixed hsizes rest

theorem restoreTexts_inj {link link' : Link} :
    restoreTexts link = restoreTexts link' ↔ link = link' := by
  constructor
  · intro h
    have htext : link.toText = link'.toText :=
      Bytes.ofString_inj.mp (congrArg (fun texts => texts.getLastD .empty) h)
    have hlink := Link.ofText_toText link
    rw [htext, Link.ofText_toText link', Except.ok.injEq] at hlink
    exact hlink.symm
  · rintro rfl
    rfl

/-- **A request tells the link and the sector.** -/
theorem restoreBody_inj : restoreBody base = restoreBody base' ↔
    base.link = base'.link ∧ base.sector = base'.sector := by
  constructor
  · intro h
    have hread := takeAllPrefixed_restoreHead base.link base.sector
    rw [← restoreBody, h, restoreBody, takeAllPrefixed_restoreHead, Except.ok.injEq,
      Prod.mk.injEq, restoreTexts_inj] at hread
    exact ⟨hread.1.symm, hread.2.symm⟩
  · rintro ⟨hlink, hsector⟩
    rw [restoreBody, restoreBody, hlink, hsector]

/-! ## The sectors of files -/

/-- A sector tells the file and the metadata that it was built for. -/
theorem build_inj (h : build file m = .ok base) (h' : build file' m' = .ok base')
    (hsector : base.sector = base'.sector) : file = file' ∧ m = m' := by
  obtain ⟨json, hjson, hused, hfit, hbase, -⟩ := build_spec h
  obtain ⟨json', hjson', hused', hfit', hbase', -⟩ := build_spec h'
  obtain ⟨hfile, htext⟩ := fill_inj (hused ▸ hfit) (hused' ▸ hfit')
    (hbase.symm.trans (hsector.trans hbase'))
  obtain rfl := Bytes.ofString_inj.mp htext
  exact ⟨hfile, Metadata.encode_inj hjson hjson'⟩

/-- What can be read off the request that restores a sector. -/
structure Describes (base : BaseSector) : Prop where
  /-- The head has 92 bytes, and behind it stands a sector of 4 MiB. -/
  size : base.restoreBody.size = 92 + 4194304
  /-- The head is three texts, each behind its length, and nothing else. -/
  head : takeAllPrefixed 3 (base.restoreBody.extract 0 92) = .ok
    ([Bytes.ofString "Skyfile Backup\n", Bytes.ofString "v1.5.5\n", Bytes.ofString base.link.toText],
      .empty)
  /-- The last of them is read as the link. -/
  link : Link.ofText base.link.toText = .ok base.link
  /-- What follows three texts is the sector, and that is what follows the head. -/
  sector : takeAllPrefixed 3 base.restoreBody = .ok (restoreTexts base.link, base.sector) ∧
    base.restoreBody.extract 92 base.restoreBody.size = base.sector
  /-- It has the root that the link holds. -/
  root : Hasher.blake2b.merkleRoot (base.restoreBody.extract 92 base.restoreBody.size)
    = .ok base.link.root

theorem describes_of_build (h : build file m = .ok base) : Describes base := by
  have hholds := holds_of_build h
  have hhead := size_restoreHead base.link
  have hrest : base.restoreBody.extract 92 base.restoreBody.size = base.sector := by
    rw [restoreBody, ByteArray.size_append]
    exact ByteArray.extract_append_eq_right hhead.symm (by rw [hhead])
  constructor
  case size =>
    rw [restoreBody, ByteArray.size_append, hhead, hholds.size]
    rfl
  case head =>
    have hread := takeAllPrefixed_restoreHead base.link .empty
    rw [ByteArray.append_empty] at hread
    rw [restoreBody, ByteArray.extract_append_eq_left hhead.symm]
    exact hread
  case link => exact Link.ofText_toText base.link
  case sector => exact ⟨takeAllPrefixed_restoreHead base.link base.sector, hrest⟩
  case root =>
    rw [hrest]
    exact hholds.root

/-- **A request that restores a sector describes itself.** For every file whose sector is built, the
request has a head of 92 bytes from which title, version and link are read, and the sector behind it
has the root in that link. It is the request for no other file and for no other metadata. Requests for
any two sectors, built or not, are the same only for one link and one sector. -/
theorem restoreBody_describes (h : build file m = .ok base) :
    Describes base ∧
    (∀ file' m' base', build file' m' = .ok base' →
      (base'.restoreBody = base.restoreBody ↔ file' = file ∧ m' = m)) ∧
    ∀ b b' : BaseSector, b.restoreBody = b'.restoreBody ↔ b.link = b'.link ∧ b.sector = b'.sector := by
  refine ⟨describes_of_build h, fun file' m' base' h' => ⟨fun hbody => ?_, ?_⟩,
    fun b b' => restoreBody_inj⟩
  · exact build_inj h' h (restoreBody_inj.mp hbody).2
  · rintro ⟨rfl, rfl⟩
    cases h.symm.trans h'
    rfl

/-- The request for a file of two bytes. -/
theorem restoreBody_describes_hi :
    ∃ base, build (Bytes.ofString "hi") ⟨"hi.txt", 2⟩ = .ok base ∧ Describes base ∧
      ∀ file' m' base', build file' m' = .ok base' →
        (base'.restoreBody = base.restoreBody ↔
          file' = Bytes.ofString "hi" ∧ m' = ⟨"hi.txt", 2⟩) := by
  have hjson : Metadata.encode ⟨"hi.txt", 2⟩ = .ok (Metadata.toValue ⟨"hi.txt", 2⟩).compact :=
    Metadata.encode_eq_ok_iff.mpr ⟨by decide, rfl⟩
  obtain ⟨base, hbase⟩ := exists_build (Bytes.ofString "hi") hjson (by decide)
  obtain ⟨hdescribes, hfiles, -⟩ := restoreBody_describes hbase
  exact ⟨base, hbase, hdescribes, hfiles⟩

end Skyfile.BaseSector

end Trustless
