import Trustless.Guarded.Download
import Trustless.Proofs.Download
import Trustless.Proofs.Guarded.Merkle

/-!
# The check of a download does not stop

The bits of a link are sixteen, so that its offset and its length stay far below a word. The sizes
in a layout are any words. Their sums are asked for with their overflow, and nothing is cut before
the sum of all three is known to lie within the checked data.

* `decode_eq`: the bits of any link.
* `locate_eq`: the link that is checked against.
* `cut_eq`: the parts of checked data.
* `verify_eq`: the check of any body, link and header.
-/

namespace Trustless.Guarded

open Skyfile (Layout layoutSize)
open Resolution (Proof)

/-! ## Links -/

/-- The units of every mode are small. -/
theorem units_le :
    ∀ mode, mode ≤ Target.maxMode → Target.offsetUnit mode ≤ 524288 ∧
      Target.sizeUnit mode ≤ 262144 ∧ Target.sizeBase mode ≤ 2097152 := by
  decide

theorem lengthUnits_eq {mode : Nat} (h : mode ≤ Target.maxMode) :
    lengthUnits mode = of (.ok (Target.sizeUnit mode, Target.sizeBase mode)) := by
  obtain ⟨-, hunit, hbase⟩ := units_le mode h
  rw [lengthUnits]
  by_cases hmode : mode = 0
  · rw [if_pos hmode, hmode]
    rfl
  · rw [Target.sizeBase, if_neg hmode] at hbase
    rw [Target.sizeUnit] at hunit
    rw [if_neg hmode, Target.sizeUnit, Target.sizeBase, if_neg hmode,
      minus_of_le (Nat.one_le_iff_ne_zero.mpr hmode), of_ok_bind,
      shiftLeft_of_lt (by unfold Target.maxMode at h; omega) (lt_of_le_of_lt hunit (by decide)),
      of_ok_bind,
      shiftLeft_of_lt (by unfold Target.maxMode at h; omega) (lt_of_le_of_lt hbase (by decide)),
      of_ok_bind]
    rfl

theorem decodeData_eq {bits : Nat} (h : bits < 16384) :
    decodeData bits = of (Target.decodeData bits) := by
  rw [decodeData, Target.decodeData]
  dsimp only
  generalize Target.trailingOnes (Target.maxMode + 1) bits = mode
  by_cases hmode : mode > Target.maxMode
  · rw [if_pos hmode, if_pos hmode]
    rfl
  · rw [if_neg hmode, if_neg hmode]
    obtain ⟨hoffset, hunit, hbase⟩ := units_le mode (Nat.le_of_not_lt hmode)
    have hrest : bits >>> (mode + 1) ≤ bits := Nat.shiftRight_le _ _
    have hshift : 4096 <<< mode < UInt64.size := lt_of_le_of_lt hoffset (by decide)
    have hmode' : mode ≤ 7 := Nat.le_of_not_lt hmode
    have hsum : (bits >>> (mode + 1) % 8 + 1) * Target.sizeUnit mode ≤ 8 * 262144 :=
      Nat.mul_le_mul (by omega) hunit
    have hstart : bits >>> (mode + 1) / 8 * Target.offsetUnit mode ≤ 2048 * 524288 :=
      Nat.mul_le_mul (by omega) hoffset
    have hword : UInt64.size = 18446744073709551616 := rfl
    rw [shortWord_of_lt (lt_of_le_of_lt (Nat.succ_le_succ hmode') (by decide)), of_ok_bind,
      shiftRight_of_lt (by omega), of_ok_bind, shiftLeft_of_lt (by omega) hshift, of_ok_bind,
      lengthUnits_eq (Nat.le_of_not_lt hmode), of_ok_bind]
    rw [Target.offsetUnit] at hstart ⊢
    generalize bits >>> (mode + 1) = rest at *
    dsimp only
    rw [word_of_lt (by omega), of_ok_bind, word_of_lt (by omega), of_ok_bind,
      word_of_lt (by omega), of_ok_bind, word_of_lt (by omega), of_ok_bind,
      word_of_lt (by omega), of_ok_bind]
    split <;> rfl

theorem decode_eq_of_lt {raw : Nat} (h : raw < UInt16.size) : decode raw = of (Target.decode raw) := by
  have hversion : raw % 4 + 1 < UInt16.size :=
    lt_of_lt_of_le (Nat.succ_lt_succ (Nat.mod_lt raw (by decide))) (by decide)
  rw [decode, below_of_lt hversion, of_ok_bind, Target.decode]
  by_cases hdata : raw % 4 = 0
  · rw [if_pos (by omega), if_pos hdata]
    exact decodeData_eq (Nat.div_lt_of_lt_mul h)
  · rw [if_neg (by omega), if_neg hdata]
    split <;> rfl

theorem bits_lt (link : Link) : link.bits < UInt16.size := by
  have hlow := (Bytes.byteAt link.bytes.toByteArray 0).toNat_lt
  have hhigh := (Bytes.byteAt link.bytes.toByteArray 1).toNat_lt
  rw [Link.bits, UInt16.size]
  omega

/-- **Decoding a link does not stop.** -/
theorem decode_eq (link : Link) : decode link.bits = of link.target :=
  decode_eq_of_lt (bits_lt link)

/-! ## Hops -/

theorem nextLink_eq (hop : Nat) (p : Proof) : nextLink hop p = of (Resolution.nextLink hop p) := by
  rw [nextLink, Resolution.nextLink]
  cases Link.ofBytes p.entry.data with
  | error e => rfl
  | ok next =>
    dsimp only
    rw [decode_eq]
    cases next.target <;> rfl

theorem followHop_eq (hop : Nat) (current : Link) (p : Proof) :
    followHop hop current p = of (Resolution.followHop hop current p) := by
  rw [followHop, nextLink_eq, Resolution.followHop]
  refine of_bind fun next _ => ?_
  by_cases hname : Registry.Entry.name p.publicKey p.dataKey ≠ current.root
  · rw [if_pos hname, if_pos hname]
    rfl
  · rw [if_neg hname, if_neg hname]
    split <;> rfl

theorem follow_eq (hop : Nat) (current : Link) (ps : List Proof) :
    follow hop current ps = of (Resolution.follow hop current ps) := by
  induction ps generalizing hop current with
  | nil =>
    rw [follow, decode_eq, Resolution.follow]
    cases current.target with
    | error e => rfl
    | ok target => cases target <;> rfl
  | cons p ps ih =>
    rw [follow, followHop_eq, Resolution.follow]
    exact of_bind fun next _ => ih (hop + 1) next

theorem resolve_eq (start : Link) (text : String) :
    resolve start text = of (Resolution.resolve start text) := by
  rw [resolve, Resolution.resolve]
  refine of_bind fun ps _ => ?_
  rw [Resolution.verifyChain]
  by_cases hempty : ps.isEmpty
  · rw [if_pos hempty, if_pos hempty]
    rfl
  · rw [if_neg hempty, if_neg hempty]
    exact follow_eq 0 start ps

/-- **Resolving a link does not stop**, whatever the header says. -/
theorem locate_eq (requested : Link) (header : Option String) :
    locate requested header = of (Download.locate requested header) := by
  unfold locate Download.locate
  rw [decode_eq, adapt_of]
  refine of_bind fun target _ => ?_
  cases target with
  | data offset size => rfl
  | entry =>
    cases header with
    | none => rfl
    | some text =>
      dsimp only
      rw [resolve_eq, adapt_of]
      refine of_bind fun link _ => ?_
      rw [decode_eq, adapt_of]
      exact of_bind fun target _ => rfl

/-! ## Checked data -/

theorem decodeLayout_eq (b : ByteArray) : decodeLayout b = of (Layout.decode b) := by
  rw [decodeLayout, Layout.decode]
  by_cases hsize : layoutSize ≤ b.size
  · rw [if_neg (Nat.not_lt_of_le hsize), dif_pos hsize]
    unfold layoutSize at hsize
    rw [field_of_le (by omega), of_ok_bind, field_of_le (by omega), of_ok_bind,
      byte_of_lt (by omega), of_ok_bind, wordAt_of_le (by omega), of_ok_bind,
      wordAt_of_le (by omega), of_ok_bind, wordAt_of_le (by omega), of_ok_bind,
      byte_of_lt (by omega), of_ok_bind, byte_of_lt (by omega), of_ok_bind]
    rfl
  · rw [if_pos (Nat.lt_of_not_le hsize), dif_neg hsize]
    rfl

/-- Where the file starts is told exactly if it is a word. -/
theorem fileStart_eq (l : Layout) :
    fileStart l = checkedAdd (layoutSize + l.metadataSize.toNat) l.fanoutSize.toNat :=
  checkedAdd_bind _ _ _

/-- Where the file ends is told exactly if it is a word. -/
theorem fileEnd_eq (l : Layout) : fileEnd l = checkedAdd l.fileStart l.fileSize.toNat := by
  rw [fileEnd, fileStart_eq]
  exact checkedAdd_bind _ _ _

theorem cutParts_eq (link : Link) (layout : Layout) {data : ByteArray}
    (h : data.size < UInt64.size) (hfit : layout.contentEnd ≤ data.size) :
    cutParts link layout data layout.fileStart layout.contentEnd = of (.ok
      ⟨link, layout, data.extract (layoutSize + layout.fanoutSize.toNat)
        (layoutSize + layout.fanoutSize.toNat + layout.metadataSize.toNat),
        data.extract layout.fileStart layout.contentEnd⟩) := by
  have hend : layout.contentEnd = layoutSize + layout.metadataSize.toNat
    + layout.fanoutSize.toNat + layout.fileSize.toNat := rfl
  have hstart : layout.contentEnd = layout.fileStart + layout.fileSize.toNat := rfl
  rw [cutParts, word_of_lt (by omega), of_ok_bind, word_of_lt (by omega), of_ok_bind,
    slice_of_le (by omega) (by omega), of_ok_bind, slice_of_le (by omega) hfit, of_ok_bind]
  rfl

/-- **Cutting checked data does not stop**, whatever sizes its layout tells. -/
theorem cut_eq (link : Link) {data : ByteArray} (h : data.size < UInt64.size) :
    cut link data = of (Download.cut link data) := by
  unfold cut Download.cut
  rw [decodeLayout_eq, adapt_of]
  refine of_bind fun layout _ => ?_
  have hend : layout.contentEnd = layout.fileStart + layout.fileSize.toNat := rfl
  rw [fileEnd_eq, fileStart_eq]
  by_cases hword : layout.contentEnd < UInt64.size
  · have hstart : layoutSize + layout.metadataSize.toNat + layout.fanoutSize.toNat < UInt64.size :=
      lt_of_le_of_lt (Nat.le_add_right layout.fileStart layout.fileSize.toNat) hword
    rw [checkedAdd_of_lt (hend ▸ hword), checkedAdd_of_lt hstart, ← hend]
    dsimp only
    by_cases hfit : layout.contentEnd ≤ data.size
    · rw [if_pos hfit, if_pos hfit]
      exact cutParts_eq link layout h hfit
    · rw [if_neg hfit, if_neg hfit, Nat.min_eq_left (Nat.le_sub_one_of_lt hword)]
      rfl
  · -- A sum that is no word is beyond the data, whichever of its parts is the first that is not.
    have hout : ¬ layout.contentEnd ≤ data.size := by omega
    rw [checkedAdd_of_le (hend ▸ Nat.le_of_not_lt hword), if_neg hout, Nat.min_eq_right (by omega)]
    cases checkedAdd (layoutSize + layout.metadataSize.toNat) layout.fanoutSize.toNat <;> rfl

/-- **The check of a download does not stop**, whatever is requested and whatever is served. -/
theorem verify_eq (body : ByteArray) (requested : Link) (header : Option String) :
    verify body requested header = of (Download.verify body requested header) := by
  unfold verify Download.verify
  rw [locate_eq]
  refine of_bind fun found _ => ?_
  obtain ⟨link, target⟩ := found
  dsimp only
  by_cases hsize : body.size < target.size
  · rw [if_pos hsize, if_pos hsize]
    rfl
  · rw [if_neg hsize, if_neg hsize, slice_of_le (Nat.zero_le _) (Nat.le_of_not_lt hsize),
      of_ok_bind, slice_of_le (Nat.le_of_not_lt hsize) le_rfl, of_ok_bind, verifyRange_eq, adapt_of]
    refine of_bind fun _ hverify => cut_eq link ?_
    cases hrange : RangeProof.leafRange target.offset target.size with
    | error e =>
      rw [RangeProof.verify_of_leafRange_error hrange] at hverify
      cases hverify
    | ok range =>
      obtain ⟨-, hlast, -, hend⟩ := RangeProof.leafRange_eq_ok_iff.mp hrange
      rw [ByteArray.size_extract]
      simp only [Sector.leaves, Sector.leafSize, UInt64.size] at *
      omega

end Trustless.Guarded
