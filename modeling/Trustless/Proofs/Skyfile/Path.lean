import Trustless.Proofs.Skyfile.Build
import Trustless.Proofs.Skyfile.Commitment

/-!
# Clean paths stay where they start

A path is checked element by element. Here it is followed, and its normal form is built by following
it as far as its own elements tell: an empty element or a dot stays where it is, two dots take back
the element before them, and all others are names. The check lets through exactly the relative paths
that are their own normal form and neither go up nor stay where they start. Followed from a
directory, such a path goes down at every element.

* `Step.ofElement`, `walk`: what elements do for someone who follows them.
* `normalize`: the normal form of a path.
* `check_eq_ok_iff`: what the check lets through.
* `walk_of_names`: following names.
* `check_clean`: all of it, and the names that sectors are built with.
-/

namespace Trustless.Skyfile.Path

variable {path e : List Char} {es kept : List (List Char)} {rooted : Bool}

/-! ## Following a path -/

/-- The element that stays where it is. -/
def here : List Char :=
  ['.']

/-- The element that goes up. -/
def parent : List Char :=
  ['.', '.']

/-- What an element of a path does for someone who follows it. -/
inductive Step
  | stay
  | up
  | into (name : List Char)

/-- An empty element stays, as a dot does; two dots go up; all others are names. -/
def Step.ofElement (e : List Char) : Step :=
  if e = [] ∨ e = here then .stay
  else if e = parent then .up
  else .into e

/-- Where an element leads to from a directory, which is given by the names on the way to it from the
root. Above the root there is nothing. -/
def follow (dir : List (List Char)) (e : List Char) : List (List Char) :=
  match Step.ofElement e with
  | .stay => dir
  | .up => dir.dropLast
  | .into name => dir ++ [name]

/-- Where elements lead to, one after the other. -/
def walk (dir : List (List Char)) (es : List (List Char)) : List (List Char) :=
  es.foldl follow dir

/-! ## The normal form -/

/-- The elements that are left after a step up, the last of which comes first. It takes back the name
before it; where there is none it is kept, or has no effect at the root. -/
def takeBack (rooted : Bool) : List (List Char) → List (List Char)
  | [] => if rooted then [] else [parent]
  | last :: before => if last = parent then parent :: last :: before else before

/-- One more element behind those that are kept, the last of which comes first. -/
def keep (rooted : Bool) (kept : List (List Char)) (e : List Char) : List (List Char) :=
  match Step.ofElement e with
  | .stay => kept
  | .up => takeBack rooted kept
  | .into name => name :: kept

/-- The elements of a normal form. -/
def normalElements (rooted : Bool) (es : List (List Char)) : List (List Char) :=
  (es.foldl (keep rooted) []).reverse

/-- The normal form of a path. What stays where it starts is written as a dot. -/
def normalize (path : List Char) : List Char :=
  if path.head? = some '/' then
    '/' :: ['/'].intercalate (normalElements true (path.splitOn '/'))
  else if normalElements false (path.splitOn '/') = [] then here
  else ['/'].intercalate (normalElements false (path.splitOn '/'))

/-- A clean relative path: its own normal form, without a step up, and not where it starts. -/
structure IsClean (path : List Char) : Prop where
  ne_nil : path ≠ []
  relative : path.head? ≠ some '/'
  normal : normalize path = path
  no_parent : parent ∉ path.splitOn '/'
  ne_here : path ≠ here

/-! ## Names -/

/-- An element that is a name. -/
def IsName (e : List Char) : Prop :=
  e ≠ [] ∧ e ≠ here ∧ e ≠ parent

theorem IsName.ofElement_eq (h : IsName e) : Step.ofElement e = .into e := by
  obtain ⟨hnil, hhere, hparent⟩ := h
  rw [Step.ofElement, if_neg (by simp [hnil, hhere]), if_neg hparent]

theorem elementFault?_eq_none_iff : elementFault? e = none ↔ IsName e := by
  unfold elementFault? IsName here parent
  split
  · rename_i hnil
    simp [hnil]
  · rename_i hnil
    split
    · rename_i hdots
      simp only [reduceCtorEq, false_iff]
      rintro ⟨-, hhere, hparent⟩
      exact hdots.elim hhere hparent
    · rename_i hdots
      simp [hnil, not_or.mp hdots]

/-- The elements of a path are what stands between its slashes. -/
theorem elements_eq_splitOn (path : List Char) : elements path = path.splitOn '/' := by
  induction path with
  | nil => rfl
  | cons c cs ih =>
    rw [elements, List.splitOn_cons_eq_if_modifyHead, ih]
    by_cases hslash : c = '/'
    · rw [if_pos hslash, if_pos (beq_iff_eq.mpr hslash)]
    · rw [if_neg hslash, if_neg (by simpa using hslash)]
      cases hsplit : cs.splitOn '/' with
      | nil => exact absurd hsplit (List.splitOn_ne_nil '/' cs)
      | cons e es => rfl

theorem slash_not_mem (path : List Char) : ∀ e ∈ path.splitOn '/', '/' ∉ e := by
  rw [← elements_eq_splitOn]
  induction path with
  | nil => simp [elements]
  | cons c cs ih =>
    rw [elements]
    split
    · exact List.forall_mem_cons.mpr ⟨List.not_mem_nil, ih⟩
    · rename_i hslash
      split
      · simpa using Ne.symm hslash
      · rename_i e es hsplit
        rw [hsplit, List.forall_mem_cons] at ih
        refine List.forall_mem_cons.mpr ⟨?_, ih.2⟩
        exact fun h => (List.mem_cons.mp h).elim (fun h => hslash h.symm) ih.1

/-- The check lets through the relative paths whose elements are names. -/
theorem fault?_eq_none_iff : fault? path = none ↔
    path ≠ [] ∧ path.head? ≠ some '/' ∧ ∀ e ∈ path.splitOn '/', IsName e := by
  unfold fault?
  split
  · simp
  · simp
  · rename_i hnil hslash
    have hrelative : path.head? ≠ some '/' := fun h => by
      obtain ⟨rest, hrest⟩ := List.head?_eq_some_iff.mp h
      exact hslash rest hrest
    simp only [List.findSome?_eq_none_iff, elementFault?_eq_none_iff, elements_eq_splitOn]
    exact ⟨fun h => ⟨hnil, hrelative, h⟩, fun h => h.2.2⟩

theorem check_eq_ok_iff_fault {path : String} : check path = .ok () ↔ fault? path.toList = none := by
  unfold check
  cases fault? path.toList <;> simp

/-! ## Names are kept -/

theorem foldl_keep_of_names (h : ∀ e ∈ es, IsName e) (kept : List (List Char)) :
    es.foldl (keep rooted) kept = es.reverse ++ kept := by
  induction es generalizing kept with
  | nil => rfl
  | cons e es ih =>
    obtain ⟨he, hes⟩ := List.forall_mem_cons.mp h
    have hkeep : keep rooted kept e = e :: kept := by rw [keep, he.ofElement_eq]
    rw [List.foldl_cons, ih hes, hkeep, List.reverse_cons, List.append_assoc]
    rfl

/-- A relative path of names is its own normal form. -/
theorem normalize_of_names (hrelative : path.head? ≠ some '/')
    (h : ∀ e ∈ path.splitOn '/', IsName e) : normalize path = path := by
  have hnormal : normalElements false (path.splitOn '/') = path.splitOn '/' := by
    rw [normalElements, foldl_keep_of_names h, List.append_nil, List.reverse_reverse]
  rw [normalize, if_neg hrelative, hnormal, if_neg (List.splitOn_ne_nil '/' path),
    List.intercalate_splitOn]

/-- What can stand in a normal form: names, and steps up. -/
def Stands (e : List Char) : Prop :=
  e ≠ [] ∧ e ≠ here ∧ '/' ∉ e

theorem stands_takeBack (h : ∀ k ∈ kept, Stands k) : ∀ k ∈ takeBack rooted kept, Stands k := by
  have hparent : Stands parent := ⟨by decide, by decide, by decide⟩
  cases kept with
  | nil =>
    rw [takeBack]
    split
    · exact h
    · exact List.forall_mem_singleton.mpr hparent
  | cons last before =>
    rw [takeBack]
    split
    · exact List.forall_mem_cons.mpr ⟨hparent, h⟩
    · exact (List.forall_mem_cons.mp h).2

/-- What an element does leaves only what can stand in a normal form. -/
theorem stands_keep (hkept : ∀ k ∈ kept, Stands k) (he : '/' ∉ e) :
    ∀ k ∈ keep rooted kept e, Stands k := by
  unfold keep Step.ofElement
  split_ifs with hstay hup
  · exact hkept
  · exact stands_takeBack hkept
  · obtain ⟨hnil, hhere⟩ := not_or.mp hstay
    exact List.forall_mem_cons.mpr ⟨⟨hnil, hhere, he⟩, hkept⟩

/-- A normal form holds nothing else. -/
theorem stands_foldl_keep (hkept : ∀ k ∈ kept, Stands k) (h : ∀ e ∈ es, '/' ∉ e) :
    ∀ k ∈ es.foldl (keep rooted) kept, Stands k := by
  induction es generalizing kept with
  | nil => exact hkept
  | cons e es ih =>
    obtain ⟨he, hes⟩ := List.forall_mem_cons.mp h
    exact ih (stands_keep hkept he) hes

/-- A path that is its own normal form consists of names, if it is relative, has no step up and is
not where it starts. -/
theorem IsClean.names (h : IsClean path) : ∀ e ∈ path.splitOn '/', IsName e := by
  have hstands : ∀ e ∈ normalElements false (path.splitOn '/'), Stands e := fun e he =>
    stands_foldl_keep (List.forall_mem_nil _) (slash_not_mem path) e (List.mem_reverse.mp he)
  have hnormal := h.normal
  rw [normalize, if_neg h.relative] at hnormal
  split at hnormal
  · exact absurd hnormal.symm h.ne_here
  · next hne =>
    -- Its elements are those of the normal form, since none of these has a slash.
    have hsplit := List.splitOn_intercalate '/' (fun e he => (hstands e he).2.2) hne
    rw [hnormal] at hsplit
    intro e he
    have hparent : e ≠ parent := fun heq => h.no_parent (heq ▸ he)
    obtain ⟨hnil, hhere, -⟩ := hstands e (hsplit ▸ he)
    exact ⟨hnil, hhere, hparent⟩

/-- **The check lets through exactly the clean relative paths.** -/
theorem check_eq_ok_iff {path : String} : check path = .ok () ↔ IsClean path.toList := by
  rw [check_eq_ok_iff_fault, fault?_eq_none_iff]
  constructor
  · rintro ⟨hnil, hrelative, hnames⟩
    refine ⟨hnil, hrelative, normalize_of_names hrelative hnames, fun h => (hnames _ h).2.2 rfl, ?_⟩
    intro hhere
    rw [hhere] at hnames
    exact (hnames here (by decide)).2.1 rfl
  · exact fun h => ⟨h.ne_nil, h.relative, h.names⟩

/-! ## Following names -/

/-- Names lead down, each of them by itself. -/
theorem walk_of_names (h : ∀ e ∈ es, IsName e) (dir : List (List Char)) : walk dir es = dir ++ es := by
  unfold walk
  induction es generalizing dir with
  | nil => exact (List.append_nil dir).symm
  | cons e es ih =>
    obtain ⟨he, hes⟩ := List.forall_mem_cons.mp h
    have hfollow : follow dir e = dir ++ [e] := by rw [follow, he.ofElement_eq]
    rw [List.foldl_cons, ih hes, hfollow, List.append_assoc]
    rfl

/-- What checking a path comes to. -/
structure CheckOutcome (path : String) : Prop where
  /-- The check lets through exactly the clean relative paths. -/
  accepted : check path = .ok () ↔ IsClean path.toList
  /-- No element of such a path leads out of the directory that it is followed from. -/
  inside : check path = .ok () → ∀ dir es, es <+: path.toList.splitOn '/' → dir <+: walk dir es
  /-- The last one leads to somewhere below it. -/
  below : check path = .ok () → ∀ dir, ∃ names, names ≠ [] ∧
    walk dir (path.toList.splitOn '/') = dir ++ names

theorem checkOutcome (path : String) : CheckOutcome path where
  accepted := check_eq_ok_iff
  inside h dir es hes := by
    have hnames := (check_eq_ok_iff.mp h).names
    rw [walk_of_names (fun e he => hnames e (hes.subset he))]
    exact List.prefix_append dir es
  below h dir :=
    ⟨_, List.splitOn_ne_nil '/' _, walk_of_names (check_eq_ok_iff.mp h).names dir⟩

/-! ## The names in sectors -/

/-- A sector that is built tells the name of its file, which is a clean relative path. -/
theorem filename_of_build {file : ByteArray} {m : Metadata} {base : BaseSector}
    (h : BaseSector.build file m = .ok base) :
    ∃ d name, Download.cut base.link base.sector = .ok d ∧ d.filename? = some name ∧
      IsClean name.toList := by
  obtain ⟨json, hjson, hused, hfit, hsector, -⟩ := BaseSector.build_spec h
  have hcheck : check m.filename = .ok () := by
    rw [← Metadata.check_toValue]
    exact (Metadata.encode_eq_ok_iff.mp hjson).1
  rw [hsector, BaseSector.cut_fill base.link (hused ▸ hfit)]
  exact ⟨_, _, rfl, Download.filename?_encode hjson rfl, check_eq_ok_iff.mp hcheck⟩

/-- **Exactly the clean relative paths pass, and they stay below where they start.** For every text, the
check lets it through if and only if it is a path that is not empty, not absolute, its own normal
form, without a step up, and not where it starts. Whoever follows such a path from any directory never
leaves the directory and ends below it. Every sector that is built tells such a path as the name of
its file. -/
theorem check_clean :
    (∀ path : String, CheckOutcome path) ∧
    ∀ (file : ByteArray) (m : Metadata) (base : BaseSector), BaseSector.build file m = .ok base →
      ∃ d name, Download.cut base.link base.sector = .ok d ∧ d.filename? = some name ∧
        IsClean name.toList :=
  ⟨checkOutcome, fun _ _ _ => filename_of_build⟩

/-- A name in a directory whose own name starts with two dots, and a file of that name. -/
theorem check_clean_dots :
    IsClean "..a/b".toList ∧
      (∀ dir, ∃ names, names ≠ [] ∧ walk dir ("..a/b".toList.splitOn '/') = dir ++ names) ∧
      ∃ base, BaseSector.build (Bytes.ofString "hi") ⟨"..a/b", 2⟩ = .ok base ∧
        ∃ d name, Download.cut base.link base.sector = .ok d ∧ d.filename? = some name ∧
          IsClean name.toList := by
  have hcheck : check "..a/b" = .ok () := by decide
  have houtcome := check_clean.1 "..a/b"
  have hjson : Metadata.encode ⟨"..a/b", 2⟩ = .ok (Metadata.toValue ⟨"..a/b", 2⟩).compact :=
    Metadata.encode_of_check hcheck
  obtain ⟨base, hbase⟩ := BaseSector.exists_build (Bytes.ofString "hi") hjson (by decide)
  exact ⟨houtcome.accepted.mp hcheck, houtcome.below hcheck, base, hbase,
    check_clean.2 _ _ base hbase⟩

end Trustless.Skyfile.Path
