import ExpectedDiagnostics.Discovery
import ExpectedDiagnostics.Proofs.FileTree.Below
import ExpectedDiagnostics.Proofs.Null
import ExpectedDiagnostics.Proofs.Staging.Names
import ExpectedDiagnostics.Proofs.Utf8

/-!
# What path arguments stand for

A directory is listed by the names below it, and each listed file is picked or passed over by its
own names: by the suffix and the stem of the last one, and by those of the directories on the way.
So what is picked is told file by file, and comes in the order of the listing. Arguments are taken
one after the other, and the first that is missing ends the search.

A path that is too long cannot be looked at. The search ends there, too: it cannot be told of such
an argument that it is missing, nor of what lies below a directory whether it is a file.

Main results:

* `pick_eq` — picking is filtering, up to the first path that is too long.
* `expandOne_directory`, `expandOne_missing` — what becomes of one argument.
* `expand_append` — given arguments stand for their files, whatever comes behind them.
* `not_isPicked_copy` — copies of files with a suffix are never picked.
* `expand_inOrder` — what arguments stand for, up to the first that ends the search.
-/

namespace ExpectedDiagnostics

/-! ## Lengths -/

namespace FileTree

/-- A path that is short enough to be looked at, as each of its names is. -/
structure IsShort (p : Path) : Prop where
  names : ∀ name ∈ p.parts, name.utf8ByteSize ≤ nameLimit
  path : p.toString.utf8ByteSize ≤ pathLimit

/-- Names that are short enough lead somewhere or nowhere. -/
theorem follow_ne_tooLong (t : FileTree) (here : Location) {names : List String}
    (h : ∀ name ∈ names, name.utf8ByteSize ≤ nameLimit) :
    t.follow here names ≠ .error .tooLong := by
  induction names generalizing here with
  | nil => simp [follow]
  | cons name names ih =>
    rw [List.forall_mem_cons] at h
    rw [follow]
    split
    · rw [if_neg (Nat.not_lt.mpr h.1)]
      exact ih _ h.2
    · simp
    · simp

/-- It can always be told whether something is at the end of a short path. -/
theorem exists_find?_of_isShort (t : FileTree) (here : Location) {p : Path} (h : IsShort p) :
    ∃ entry, t.find? here p = .ok entry := by
  unfold find? locate
  rw [if_neg (Nat.not_lt.mpr h.path)]
  have hshort := follow_ne_tooLong t (if p.isAbsolute then .root else here) h.names
  split
  · exact ⟨_, rfl⟩
  · split
    · exact ⟨_, rfl⟩
    · rename_i hlong
      exact absurd hlong hshort
    · exact ⟨_, rfl⟩

/-- A path can only be too long to tell what is at its end. -/
theorem find?_cases (t : FileTree) (here : Location) (p : Path) :
    (∃ entry, t.find? here p = .ok entry) ∨ t.find? here p = .error ⟨.tooLong, p⟩ := by
  unfold find?
  split
  · exact .inl ⟨_, rfl⟩
  · split
    · exact .inl ⟨_, rfl⟩
    · exact .inr rfl
    · exact .inl ⟨_, rfl⟩

end FileTree

namespace Selection

variable {suffixes excluded : List String} {w : Workspace} {p : Path}

/-! ## What is picked -/

/-- A file below a directory is picked: it has one of the suffixes, in either case of letters, none
of the directories on the way to it is left out, and it is no copy. -/
structure IsPicked (suffixes excluded : List String) (w : Workspace) (p : Path)
    (names : List String) : Prop where
  below : names ≠ []
  file : ∃ content, w.tree.entry? ⟨(w.place p).names ++ names⟩ = some (.file content)
  suffix : Text.lower (p.append names).suffix ∈ suffixes.map Text.lower
  directories : ∀ directory ∈ names.dropLast, directory ∉ excluded
  source : ¬ ".ts-expect-error".toList <:+ (p.append names).stem.toList

/-- Everything below a directory has a path that is short enough to be looked at. -/
def HasRoom (w : Workspace) (p : Path) : Prop :=
  ∀ place ∈ w.tree.directories ++ w.tree.files.map (·.1),
    ∀ names ∈ (w.place p).namesBelow? place,
      (p.append names).toString.utf8ByteSize ≤ FileTree.pathLimit

/-- Tells whether a listed file is picked. -/
def picks (suffixes excluded : List String) (p : Path) (names : List String) : Bool :=
  hasSuffix ⟨suffixes, .named excluded⟩ (p.append names) &&
    !names.dropLast.any excluded.contains && !isCopy (p.append names)

theorem isPicked_iff {names : List String} : IsPicked suffixes excluded w p names ↔
    names ∈ w.tree.below (w.place p) ∧ picks suffixes excluded p names = true := by
  have hsuffix : hasSuffix ⟨suffixes, .named excluded⟩ (p.append names) = true ↔
      Text.lower (p.append names).suffix ∈ suffixes.map Text.lower := by
    unfold hasSuffix
    rw [List.contains_iff_mem]
  have hdirectories : (!names.dropLast.any excluded.contains) = true ↔
      ∀ directory ∈ names.dropLast, directory ∉ excluded := by
    rw [Bool.not_eq_true', List.any_eq_false]
    simp only [List.contains_iff_mem]
  have hsource : (!isCopy (p.append names)) = true ↔
      ¬ ".ts-expect-error".toList <:+ (p.append names).stem.toList := by
    unfold isCopy
    rw [Bool.not_eq_true', ← Bool.not_eq_true, List.isSuffixOf_iff_suffix]
    rfl
  unfold picks
  rw [FileTree.mem_below_iff, Bool.and_eq_true, Bool.and_eq_true, hsuffix, hdirectories, hsource]
  constructor
  · intro h
    exact ⟨⟨h.below, h.file⟩, ⟨h.suffix, h.directories⟩, h.source⟩
  · rintro ⟨⟨hbelow, hfile⟩, ⟨hsuffix, hdirectories⟩, hsource⟩
    exact ⟨hbelow, hfile, hsuffix, hdirectories, hsource⟩

theorem lengthFailure?_eq_none_iff {q : Path} :
    lengthFailure? q = none ↔ q.toString.utf8ByteSize ≤ FileTree.pathLimit := by
  unfold lengthFailure?
  split
  · rename_i hlong
    exact iff_of_false nofun (Nat.not_le.mpr hlong)
  · rename_i hshort
    exact iff_of_true rfl (Nat.not_lt.mp hshort)

/-- Of some listed paths, either none is too long, or one is the first that is. -/
theorem findSome?_lengthFailure? (p : Path) (listing : List (List String)) :
    ((∀ names ∈ listing, lengthFailure? (p.append names) = none) ∧
        (listing.findSome? fun names => lengthFailure? (p.append names)) = none) ∨
      ∃ names ∈ listing, lengthFailure? (p.append names) ≠ none ∧
        (listing.findSome? fun names => lengthFailure? (p.append names)) =
          some (.file ⟨.tooLong, p.append names⟩) := by
  cases hfind : listing.findSome? fun names => lengthFailure? (p.append names) with
  | none => exact .inl ⟨List.findSome?_eq_none_iff.mp hfind, rfl⟩
  | some f =>
    obtain ⟨names, hnames, hf⟩ := List.exists_of_findSome?_eq_some hfind
    refine .inr ⟨names, hnames, ?_, ?_⟩
    · rw [hf]
      exact Option.some_ne_none f
    · unfold lengthFailure? at hf
      split at hf
      · exact hf.symm
      · exact nomatch hf

/-- The files that are picked below a directory, in the order of their names. -/
def pickedBelow (suffixes excluded : List String) (w : Workspace) (p : Path) : List Path :=
  ((w.tree.below (w.place p)).filter (picks suffixes excluded p)).map p.append

/-- **Picking is filtering**, up to the first path that is too long. -/
theorem pick_eq (listing : List (List String)) :
    pick ⟨suffixes, .named excluded⟩ p listing =
      (((listing.takeWhile fun names => (lengthFailure? (p.append names)).isNone).filter
          (picks suffixes excluded p)).map p.append,
        listing.findSome? fun names => lengthFailure? (p.append names)) := by
  induction listing with
  | nil => rfl
  | cons names rest ih =>
    have hexcluded : Exclusions.excludesAny (.named excluded) names.dropLast =
        .ok (names.dropLast.any excluded.contains) := rfl
    rw [pick, List.takeWhile_cons, List.findSome?_cons]
    dsimp only
    cases lengthFailure? (p.append names) with
    -- what comes behind this path is not looked at
    | some f => rfl
    | none =>
      rw [ih, hexcluded, Option.isNone_none, if_pos rfl, List.filter_cons, picks]
      cases hasSuffix ⟨suffixes, .named excluded⟩ (p.append names) with
      | false => rfl
      | true =>
        cases names.dropLast.any excluded.contains with
        | true => rfl
        | false =>
          cases isCopy (p.append names) with
          | true => rfl
          | false => rfl

/-- The copy of a file with a suffix is never picked. -/
theorem not_isPicked_copy {source : Path} {names : List String} (hsuffix : source.suffix ≠ "")
    (hcopy : Staging.copyPath source = .ok (p.append names)) :
    ¬ IsPicked suffixes excluded w p names := by
  intro h
  refine h.source ?_
  unfold Staging.copyPath at hcopy
  split at hcopy
  · exact nomatch hcopy
  · -- the last name is that of the copy, and its stem ends in what staging puts in
    have hname : (p.append names).name = Staging.copyName source.name := by
      rw [← Except.ok.inj hcopy]
      unfold Path.name Path.withName
      rw [List.getLast?_concat, Option.getD_some]
    unfold Path.stem
    rw [hname, Staging.stemOf_copyName hsuffix]
    exact List.suffix_append _ _

/-! ## One argument -/

/-- The files that a path argument stands for: the file that it leads to itself, or those that are
picked below the directory, in the order of their names. -/
inductive StandsFor (suffixes excluded : List String) (w : Workspace) : Path → List Path → Prop
  | file {p : Path} {content : List UInt8} (hfound : w.find? p = .ok (some (.file content))) :
      StandsFor suffixes excluded w p [p]
  | directory {p : Path} {group : List Path} (hfound : w.find? p = .ok (some .directory))
      (hpicked : ∀ q, q ∈ group ↔ ∃ names, q = p.append names ∧
        IsPicked suffixes excluded w p names)
      (hordered : group.Pairwise fun a b => a.parts < b.parts) :
      StandsFor suffixes excluded w p group

/-- A path argument leads to a file, or to a directory where everything can be looked at. -/
def IsGiven (w : Workspace) (p : Path) : Prop :=
  ∃ entry, w.find? p = .ok (some entry) ∧ (entry = .directory → HasRoom w p)

/-- A path argument leads nowhere. -/
def IsMissing (w : Workspace) (p : Path) : Prop :=
  ∀ entry, w.find? p ≠ .ok (some entry)

/-- A directory stands for the files that are picked below it. -/
theorem standsFor_pickedBelow (hfiles : (w.tree.files.map (·.1)).Nodup)
    (hfound : w.find? p = .ok (some .directory)) :
    StandsFor suffixes excluded w p (pickedBelow suffixes excluded w p) := by
  refine .directory hfound (fun q => ?_) ?_
  · unfold pickedBelow
    rw [List.mem_map]
    simp only [List.mem_filter, isPicked_iff]
    constructor
    · rintro ⟨names, hnames, rfl⟩
      exact ⟨names, rfl, hnames⟩
    · rintro ⟨names, rfl, hnames⟩
      exact ⟨names, hnames, rfl⟩
  · -- all paths begin with the argument, so they are in the order of the names below it
    unfold pickedBelow
    rw [List.pairwise_map]
    refine ((FileTree.pairwise_sortedBelow _ hfiles).filter _).imp fun hlt => ?_
    exact List.append_left_lt hlt

/-- There is room in a directory if no listed path is too long. -/
theorem hasRoom_iff : HasRoom w p ↔
    ∀ names ∈ w.tree.foldersBelow (w.place p) ++ w.tree.below (w.place p),
      lengthFailure? (p.append names) = none := by
  have hlisted : ∀ names,
      names ∈ w.tree.foldersBelow (w.place p) ++ w.tree.below (w.place p) ↔
        ∃ place ∈ w.tree.directories ++ w.tree.files.map (·.1),
          (w.place p).namesBelow? place = some names := by
    intro names
    unfold FileTree.foldersBelow FileTree.below FileTree.sortedBelow
    rw [List.mem_append, List.mem_mergeSort, List.mem_mergeSort, ← List.mem_append,
      ← List.filterMap_append, List.mem_filterMap]
  simp only [hlisted, lengthFailure?_eq_none_iff]
  constructor
  · rintro hroom names ⟨place, hplace, hnames⟩
    exact hroom place hplace names hnames
  · intro h place hplace names hnames
    exact h names ⟨place, hplace, hnames⟩

/-- A directory with room is searched to its end. Without it the search ends early, with a failure
for a path that is too long. -/
theorem expandOne_directory (hfound : w.find? p = .ok (some .directory)) :
    (expandOne ⟨suffixes, .named excluded⟩ w p).files <+: pickedBelow suffixes excluded w p ∧
      (HasRoom w p → expandOne ⟨suffixes, .named excluded⟩ w p =
        ⟨pickedBelow suffixes excluded w p,
          [countRecord p (pickedBelow suffixes excluded w p)], none⟩) ∧
      (¬ HasRoom w p → ∃ names, (expandOne ⟨suffixes, .named excluded⟩ w p).failure =
        some (.file ⟨.tooLong, p.append names⟩)) := by
  unfold expandOne
  rw [hfound, hasRoom_iff, List.forall_mem_append]
  dsimp only
  rcases findSome?_lengthFailure? p (w.tree.foldersBelow (w.place p)) with
    ⟨hfolders, hnone⟩ | ⟨names, hnames, hlong, hsome⟩
  -- the directories are listed, so it is up to the files
  · rw [hnone, and_iff_right hfolders, pick_eq]
    refine ⟨(((List.takeWhile_prefix _).filter _).map _), fun hshort => ?_, fun hroom => ?_⟩
    · have hall : ∀ names ∈ w.tree.below (w.place p),
          (lengthFailure? (p.append names)).isNone = true := by
        intro names hnames
        rw [hshort names hnames]
        rfl
      rw [List.takeWhile_eq_self_iff.mpr hall, List.findSome?_eq_none_iff.mpr hshort]
      rfl
    · rcases findSome?_lengthFailure? p (w.tree.below (w.place p)) with
        ⟨hshort, -⟩ | ⟨names, -, -, hsome⟩
      · exact absurd hshort hroom
      · exact ⟨names, hsome⟩
  -- a directory cannot be listed, and nothing is found
  · rw [hsome]
    refine ⟨List.nil_prefix, fun hshort => ?_, fun _ => ⟨names, rfl⟩⟩
    exact absurd (hshort.1 names hnames) hlong

/-- **An argument that is there** stands for a file, or for those that are picked below it. -/
theorem expandOne_given (hfiles : (w.tree.files.map (·.1)).Nodup) (hgiven : IsGiven w p) :
    ∃ group, StandsFor suffixes excluded w p group ∧
      (expandOne ⟨suffixes, .named excluded⟩ w p).files = group ∧
      (expandOne ⟨suffixes, .named excluded⟩ w p).failure = none := by
  obtain ⟨entry, hfound, hroom⟩ := hgiven
  cases entry with
  | file content =>
    refine ⟨[p], .file hfound, ?_⟩
    unfold expandOne
    rw [hfound]
    exact ⟨rfl, rfl⟩
  | directory =>
    obtain ⟨-, hone, -⟩ := expandOne_directory hfound
    rw [hone (hroom rfl)]
    exact ⟨_, standsFor_pickedBelow hfiles hfound, rfl, rfl⟩

/-! ## Arguments in their order -/

/-- An argument without a failure gives way to the next one. -/
theorem expand_cons {s : Selection} (h : (s.expandOne w p).failure = none) (paths : List Path) :
    s.expand w (p :: paths) =
      ⟨(s.expandOne w p).files ++ (s.expand w paths).files,
        (s.expandOne w p).log ++ (s.expand w paths).log, (s.expand w paths).failure⟩ := by
  rw [expand, h]
  rfl

/-- An argument with a failure is the last one. -/
theorem expand_failed {s : Selection} (h : (s.expandOne w p).failure.isSome = true)
    (paths : List Path) : s.expand w (p :: paths) = s.expandOne w p := by
  rw [expand]
  exact if_pos h

/-- **Given arguments stand for their files**, one after the other, whatever comes behind them. -/
theorem expand_append (hfiles : (w.tree.files.map (·.1)).Nodup) {before : List Path}
    (hgiven : ∀ p ∈ before, IsGiven w p) :
    ∃ groups, List.Forall₂ (StandsFor suffixes excluded w) before groups ∧ ∀ rest,
      (expand ⟨suffixes, .named excluded⟩ w (before ++ rest)).files =
          groups.flatten ++ (expand ⟨suffixes, .named excluded⟩ w rest).files ∧
        (expand ⟨suffixes, .named excluded⟩ w (before ++ rest)).failure =
          (expand ⟨suffixes, .named excluded⟩ w rest).failure := by
  induction before with
  | nil => exact ⟨[], .nil, fun _ => ⟨rfl, rfl⟩⟩
  | cons p before ih =>
    rw [List.forall_mem_cons] at hgiven
    obtain ⟨group, hgroup, hone, hnone⟩ := expandOne_given hfiles hgiven.1
    obtain ⟨groups, hgroups, hrest⟩ := ih hgiven.2
    refine ⟨group :: groups, .cons hgroup hgroups, fun rest => ?_⟩
    obtain ⟨hmore, hfailure⟩ := hrest rest
    rw [List.cons_append, expand_cons hnone]
    dsimp only
    rw [hone, hmore, hfailure, List.flatten_cons, List.append_assoc]
    exact ⟨rfl, rfl⟩

/-- The failure for an argument that is missing. -/
def missingFailure (p : Path) : Failure :=
  .problem (.invalidPath p "no such file or directory")

theorem expandOne_of_find?_error {s : Selection} {f : Failure} (h : w.find? p = .error f) :
    s.expandOne w p = ⟨[], [], some f⟩ := by
  unfold expandOne
  rw [h]

/-- A missing argument ends the search with a failure. If it is short, it is told to be missing, and
otherwise it may be too long to tell. -/
theorem expandOne_missing (s : Selection) (hmissing : IsMissing w p) :
    ∃ f, s.expandOne w p = ⟨[], [], some f⟩ ∧
      (f = missingFailure p ∨ f = .file ⟨.tooLong, p⟩) ∧
      (FileTree.IsShort p → f = missingFailure p) := by
  rcases FileTree.find?_cases w.tree w.directory p with ⟨entry, hfind⟩ | hfind
  · have hfound : w.find? p = .ok entry := by
      unfold Workspace.find?
      rw [hfind]
      rfl
    cases entry with
    | some entry => exact absurd hfound (hmissing entry)
    | none =>
      refine ⟨missingFailure p, ?_, .inl rfl, fun _ => rfl⟩
      unfold expandOne
      rw [hfound]
      rfl
  · have hfound : w.find? p = .error (.file ⟨.tooLong, p⟩) := by
      unfold Workspace.find?
      rw [hfind]
      rfl
    refine ⟨.file ⟨.tooLong, p⟩, expandOne_of_find?_error hfound, .inr rfl, fun hshort => ?_⟩
    obtain ⟨entry, hentry⟩ := FileTree.exists_find?_of_isShort w.tree w.directory hshort
    exact nomatch hfind.symm.trans hentry

/-- **What path arguments stand for**, if directories are left out by their names and no two files
are at one place. Arguments that are there stand for a file or for those that are picked below a
directory, each once and in the order of their names. All arguments in front of one that is missing
stand for their files, and then the search ends with a failure that tells so, or tells that the path
is too long. It also ends in a directory where something has a path that is too long, with the first
of the files that the directory stands for. No copy of a file with a suffix is found in a
directory. -/
theorem expand_inOrder (hfiles : (w.tree.files.map (·.1)).Nodup) :
    (∀ paths : List Path, (∀ p ∈ paths, IsGiven w p) →
      ∃ groups, List.Forall₂ (StandsFor suffixes excluded w) paths groups ∧
        (expand ⟨suffixes, .named excluded⟩ w paths).files = groups.flatten ∧
        (expand ⟨suffixes, .named excluded⟩ w paths).failure = none) ∧
      (∀ (before after : List Path) (p : Path), (∀ q ∈ before, IsGiven w q) → IsMissing w p →
        ∃ groups f, List.Forall₂ (StandsFor suffixes excluded w) before groups ∧
          (expand ⟨suffixes, .named excluded⟩ w (before ++ p :: after)).files = groups.flatten ∧
          (expand ⟨suffixes, .named excluded⟩ w (before ++ p :: after)).failure = some f ∧
          (f = missingFailure p ∨ f = .file ⟨.tooLong, p⟩) ∧
          (FileTree.IsShort p → f = missingFailure p)) ∧
      (∀ (before after : List Path) (p : Path), (∀ q ∈ before, IsGiven w q) →
        w.find? p = .ok (some .directory) → ¬ HasRoom w p →
          ∃ groups group found names,
            List.Forall₂ (StandsFor suffixes excluded w) before groups ∧
            StandsFor suffixes excluded w p group ∧ found <+: group ∧
            (expand ⟨suffixes, .named excluded⟩ w (before ++ p :: after)).files =
              groups.flatten ++ found ∧
            (expand ⟨suffixes, .named excluded⟩ w (before ++ p :: after)).failure =
              some (.file ⟨.tooLong, p.append names⟩)) ∧
      ∀ (p : Path) (group : List Path), StandsFor suffixes excluded w p group →
        w.find? p = .ok (some .directory) → ∀ source copy : Path, source.suffix ≠ "" →
          Staging.copyPath source = .ok copy → copy ∉ group := by
  refine ⟨fun paths hgiven => ?_, fun before after p hgiven hmissing => ?_,
    fun before after p hgiven hfound hroom => ?_, ?_⟩
  · obtain ⟨groups, hgroups, hrest⟩ := expand_append hfiles hgiven
    obtain ⟨hgot, hfailure⟩ := hrest []
    rw [List.append_nil] at hgot hfailure
    exact ⟨groups, hgroups, hgot.trans (List.append_nil _), hfailure⟩
  · obtain ⟨groups, hgroups, hrest⟩ := expand_append hfiles hgiven
    obtain ⟨hgot, hfailure⟩ := hrest (p :: after)
    obtain ⟨f, hone, hcases, hshort⟩ :=
      expandOne_missing ⟨suffixes, .named excluded⟩ hmissing
    rw [expand_failed (by rw [hone]; rfl), hone] at hgot hfailure
    exact ⟨groups, f, hgroups, hgot.trans (List.append_nil _), hfailure, hcases, hshort⟩
  · obtain ⟨groups, hgroups, hrest⟩ := expand_append hfiles hgiven
    obtain ⟨hgot, hfailure⟩ := hrest (p :: after)
    obtain ⟨hbegins, -, hlong⟩ := expandOne_directory hfound
    obtain ⟨names, hone⟩ := hlong hroom
    rw [expand_failed (by rw [hone]; rfl)] at hgot hfailure
    exact ⟨groups, _, _, names, hgroups, standsFor_pickedBelow hfiles hfound, hbegins, hgot,
      hfailure.trans hone⟩
  · intro p group hstands hfound source copy hsuffix hcopy hmem
    cases hstands with
    | file hfile => exact nomatch hfile.symm.trans hfound
    | directory _ hpicked _ =>
      obtain ⟨names, rfl, hnames⟩ := (hpicked copy).mp hmem
      exact not_isPicked_copy hsuffix hcopy hnames

/-- A directory with a source, its copy, and a file in a directory that is left out. -/
def sampleWorkspace : Workspace where
  tree := ⟨[⟨["a"]⟩, ⟨["a", "node_modules"]⟩],
    [(⟨["a", "x.TS"]⟩, []), (⟨["a", "x.ts-expect-error.TS"]⟩, []),
      (⟨["a", "node_modules", "y.ts"]⟩, []), (⟨["z.txt"]⟩, [])]⟩
  directory := .root
  home := .root
  input := ""

/-- The path from the working directory. -/
def fromHere (names : List String) : Path :=
  ⟨.relative, names⟩

theorem isGiven_sample : ∀ p ∈ [fromHere ["z.txt"], fromHere ["a"]], IsGiven sampleWorkspace p := by
  have hroom : HasRoom sampleWorkspace (fromHere ["a"]) := by
    unfold HasRoom
    decide
  refine List.forall_mem_cons.mpr ⟨⟨.file [], rfl, nofun⟩, List.forall_mem_singleton.mpr ?_⟩
  exact ⟨.directory, rfl, fun _ => hroom⟩

theorem isPicked_sample :
    IsPicked [".ts"] ["node_modules"] sampleWorkspace (fromHere ["a"]) ["x.TS"] where
  below := by decide
  file := ⟨[], rfl⟩
  suffix := by decide
  directories := by decide
  source := by decide

/-- In either case of letters, a source is found, its copy is not, and what comes behind a missing
argument is not looked at. -/
theorem expand_inOrder_sample :
    (sampleWorkspace.tree.files.map (·.1)).Nodup ∧
      ∃ group, StandsFor [".ts"] ["node_modules"] sampleWorkspace (fromHere ["a"]) group ∧
        fromHere ["a", "x.TS"] ∈ group ∧ fromHere ["a", "x.ts-expect-error.TS"] ∉ group ∧
        (expand ⟨[".ts"], .named ["node_modules"]⟩ sampleWorkspace
          [fromHere ["z.txt"], fromHere ["a"], fromHere ["b"], fromHere ["z.txt"]]).files =
            fromHere ["z.txt"] :: group ∧
        (expand ⟨[".ts"], .named ["node_modules"]⟩ sampleWorkspace
          [fromHere ["z.txt"], fromHere ["a"], fromHere ["b"], fromHere ["z.txt"]]).failure =
            some (missingFailure (fromHere ["b"])) := by
  have hfiles : (sampleWorkspace.tree.files.map (·.1)).Nodup := by decide
  have hz : sampleWorkspace.find? (fromHere ["z.txt"]) = .ok (some (.file [])) := rfl
  have ha : sampleWorkspace.find? (fromHere ["a"]) = .ok (some .directory) := rfl
  have hb : IsMissing sampleWorkspace (fromHere ["b"]) := fun _ => nofun
  obtain ⟨-, hmissing, -, hcopies⟩ := @expand_inOrder [".ts"] ["node_modules"] _ hfiles
  obtain ⟨groups, f, hgroups, hgot, hfailure, -, hf⟩ :=
    hmissing _ [fromHere ["z.txt"]] _ isGiven_sample hb
  rw [hf ⟨by decide, by decide⟩] at hfailure
  cases hgroups with
  | @cons _ first _ _ hfirst hrest =>
    cases hrest with
    | @cons _ group _ _ hgroup hnil =>
      cases hnil
      have hcopy := hcopies _ _ hgroup ha (fromHere ["a", "x.TS"]) _ (by decide) rfl
      cases hfirst with
      | directory hfound => exact nomatch hz.symm.trans hfound
      | file =>
        cases hgroup with
        | file hfound => exact nomatch ha.symm.trans hfound
        | directory hfound hpicked hordered =>
          refine ⟨hfiles, group, .directory hfound hpicked hordered,
            (hpicked _).mpr ⟨_, rfl, isPicked_sample⟩, hcopy, ?_, hfailure⟩
          rw [← List.append_nil group]
          exact hgot

/-- A name that no file can have. -/
def overlongName : String := .ofList (List.replicate 256 'n')

theorem find?_overlong : sampleWorkspace.find? (fromHere [overlongName]) =
    .error (.file ⟨.tooLong, fromHere [overlongName]⟩) := by
  have hsize : overlongName.utf8ByteSize = 256 := by
    unfold overlongName
    rw [Utf8.utf8ByteSize_replicate]
    rfl
  have hnull : (fromHere [overlongName]).hasNull = false := by
    refine Path.hasNull_eq_false_iff.mpr (List.forall_mem_singleton.mpr ?_)
    unfold overlongName
    rw [Path.isNullName_eq_false_iff, String.toList_ofList, List.mem_replicate]
    decide
  have htext : (fromHere [overlongName]).toString = overlongName := by
    show String.intercalate "/" [overlongName] = _
    exact String.intercalate_singleton
  have hlocate : sampleWorkspace.tree.locate sampleWorkspace.directory (fromHere [overlongName]) =
      .error .tooLong := by
    -- the path is not too long, but its only name is
    rw [FileTree.locate, htext, hsize, if_neg (by decide)]
    show FileTree.follow _ .root [overlongName] = _
    rw [FileTree.follow, hsize]
    rfl
  unfold Workspace.find? FileTree.find?
  rw [hnull, hlocate]
  rfl

/-- An argument that is missing is not told to be if its name is too long to be looked up. -/
theorem overlong_not_told_missing :
    (sampleWorkspace.tree.files.map (·.1)).Nodup ∧
      IsMissing sampleWorkspace (fromHere [overlongName]) ∧
      (expand ⟨[".ts"], .named ["node_modules"]⟩ sampleWorkspace
        [fromHere ["z.txt"], fromHere [overlongName]]).failure =
          some (.file ⟨.tooLong, fromHere [overlongName]⟩) ∧
      (expand ⟨[".ts"], .named ["node_modules"]⟩ sampleWorkspace
        [fromHere ["z.txt"], fromHere [overlongName]]).failure ≠
          some (missingFailure (fromHere [overlongName])) := by
  have hmissing : IsMissing sampleWorkspace (fromHere [overlongName]) := by
    intro entry hentry
    exact nomatch find?_overlong.symm.trans hentry
  have hfirst : (expandOne ⟨[".ts"], .named ["node_modules"]⟩ sampleWorkspace
      (fromHere ["z.txt"])).failure = none := rfl
  have hsecond : expandOne ⟨[".ts"], .named ["node_modules"]⟩ sampleWorkspace
      (fromHere [overlongName]) = ⟨[], [], some (.file ⟨.tooLong, fromHere [overlongName]⟩)⟩ :=
    expandOne_of_find?_error find?_overlong
  have hfailure : (expand ⟨[".ts"], .named ["node_modules"]⟩ sampleWorkspace
      [fromHere ["z.txt"], fromHere [overlongName]]).failure =
        some (.file ⟨.tooLong, fromHere [overlongName]⟩) := by
    rw [expand_cons hfirst, expand_failed (by rw [hsecond]; rfl), hsecond]
  refine ⟨by decide, hmissing, hfailure, ?_⟩
  rw [hfailure]
  exact nofun

end Selection

end ExpectedDiagnostics
