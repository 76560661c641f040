import ExpectedDiagnostics.Proofs.Capture
import ExpectedDiagnostics.Proofs.FileTree.Additions
import ExpectedDiagnostics.Proofs.Marker.Retag
import ExpectedDiagnostics.Proofs.Staging.Copies

/-!
# What staging does to the tree

Whatever files are staged, and wherever staging stops, the tree is the one that it began with and
one copy more for each annotated file that was staged (`Entered`). So removing the copies gives that
tree back.

A file that is not there at first may be the copy of an earlier one. It can be read by then, but it
needs no copy of its own, because its text has been retagged already.

Main results:

* `Entered.add` — what staging one more file does, if it succeeds.
* `entered_enter` — where staging stands after all files, or before the one that stopped it.
* `tree_cleaned`, `tree_enter_of_failure` — removing the copies gives the first tree back, and this
  is done when staging is stopped.
-/

namespace ExpectedDiagnostics

/-- No carriage return is left among unified line ends. -/
theorem Text.return_not_mem_unifyLineEnds (cs : List Char) : '\r' ∉ unifyLineEnds cs := by
  fun_induction unifyLineEnds cs with
  | case1 => exact List.not_mem_nil
  | case2 cs ih => simpa using ih
  | case3 cs _ ih => simpa using ih
  | case4 c cs _ hreturn ih =>
    rw [List.mem_cons, not_or]
    exact ⟨fun heq => hreturn heq.symm, ih⟩

namespace Workspace

/-- A text that was read has no carriage return. -/
theorem return_not_mem_of_textOf {octets : List UInt8} {text : List Char}
    (h : textOf octets = .ok text) : '\r' ∉ text := by
  obtain ⟨cs, -, hunified⟩ := exists_of_bind_eq_ok h
  obtain rfl := Except.ok.inj hunified
  exact Text.return_not_mem_unifyLineEnds cs

/-- The octets of a text without carriage returns are the text. -/
theorem textOf_encode {text : List Char} (h : '\r' ∉ text) :
    textOf (Utf8.encode text) = .ok text := by
  unfold textOf
  rw [Utf8.decode_encode]
  exact congrArg Except.ok (Text.unifyLineEnds_of_not_mem h)

end Workspace

namespace Staging

variable {w : Workspace} {source : Location} {done : List Location} {s next : Staging}

/-! ## Copies and their texts -/

/-- The text that the copy of a file gets. -/
def copyText (w : Workspace) (source : Location) : String :=
  match w.readText source.toPath with
  | .ok text => Marker.retag (.ofList text)
  | .error _ => ""

/-- The copy of a file: its place and its content. -/
def copyFile (w : Workspace) (source : Location) : Location × List UInt8 :=
  (copyPlace source, Utf8.encode (copyText w source).toList)

/-- The copies of files, of those that get one. -/
def copyFiles (w : Workspace) (sources : List Location) : List (Location × List UInt8) :=
  (sources.filter (hasCopy w)).map (copyFile w)

theorem copyText_eq {text : List Char} (h : w.readText source.toPath = .ok text) :
    copyText w source = Marker.retag (.ofList text) := by
  unfold copyText
  rw [h]

theorem retag_copyText (w : Workspace) (source : Location) :
    Marker.retag (copyText w source) = copyText w source := by
  unfold copyText
  split
  · exact Marker.retag_retag _
  · rfl

theorem return_not_mem_copyText (w : Workspace) (source : Location) :
    '\r' ∉ (copyText w source).toList := by
  unfold copyText
  split
  · rename_i text hread
    obtain ⟨-, _, _, -, -, htext⟩ := Workspace.readText_eq_ok_iff.mp hread
    intro hmem
    have hbefore := (Marker.retagged_retag (.ofList text)).mem hmem (by decide)
    rw [String.toList_ofList] at hbefore
    exact Workspace.return_not_mem_of_textOf htext hbefore
  · exact List.not_mem_nil

/-! ## One file -/

/-- The tree of a stage, as the files are read from it. -/
def reading (s : Staging) : Workspace :=
  ⟨s.tree, .root, .root, ""⟩

end Staging

namespace FileTree

variable {t : FileTree}

/-- Where the path of a place leads somewhere, that of a neighbour leads nowhere only because it is
too long. -/
theorem eq_tooLong_of_locate_sibling {dirs : List String} {name other : String}
    {here found : Location} {cause : Cause}
    (h : t.locate here (Location.toPath ⟨dirs ++ [name]⟩) = .ok found)
    (herror : t.locate here (Location.toPath ⟨dirs ++ [other]⟩) = .error cause) :
    cause = .tooLong := by
  rw [locate_toPath_eq, follow_snoc] at h herror
  split at h
  · exact absurd h (by simp)
  split at herror
  · exact (Except.error.inj herror).symm
  -- both paths lead through the same directory, and it exists
  obtain ⟨dir, hdir, h⟩ := exists_of_bind_eq_ok h
  rw [hdir] at herror
  simp only [bind, Except.bind, follow] at h herror
  split at h
  · rename_i hentry
    rw [hentry] at herror
    dsimp only at herror
    split at herror
    · exact (Except.error.inj herror).symm
    · exact absurd herror (by simp)
  · exact absurd h (by simp)
  · exact absurd h (by simp)

end FileTree

namespace Staging

variable {w : Workspace} {source : Location} {done : List Location} {s next : Staging}

/-- A file that is read is at its place. -/
theorem exists_content_of_readText (hcanonical : source.IsCanonical) {text : List Char}
    (h : w.readText source.toPath = .ok text) :
    w.tree.locate .root source.toPath = .ok source ∧ ∃ content,
      w.tree.entry? source = some (.file content) ∧ Workspace.textOf content = .ok text := by
  obtain ⟨-, place, content, hlocate, hentry, htext⟩ := Workspace.readText_eq_ok_iff.mp h
  obtain rfl := FileTree.locate_toPath hcanonical hlocate
  rw [FileTree.locate_of_isAbsolute (FileTree.isAbsolute_toPath _) _ _ .root] at hlocate
  exact ⟨hlocate, content, hentry, htext⟩

/-- If nothing is found by the path of a copy, the path leads to its place nevertheless, because
that of the source leads to the source. So nothing is there. -/
theorem locate_copyPlace_of_find? {found : Location} (hcanonical : source.IsCanonical)
    (hroot : source ≠ .root) (hlocate : w.tree.locate .root source.toPath = .ok found)
    (hfind : w.find? (copyPlace source).toPath = .ok none) :
    w.tree.locate .root (copyPlace source).toPath = .ok (copyPlace source) ∧
      w.tree.entry? (copyPlace source) = none := by
  have hcopy := isCanonical_copyPlace hcanonical hroot
  obtain ⟨dirs, name, hsource, -, hname⟩ := exists_snoc hcanonical hroot
  have hfind := exists_of_mapError_eq_ok hfind
  unfold FileTree.find? at hfind
  rw [Path.hasNull_toPath hcopy, if_neg Bool.false_ne_true] at hfind
  cases hcopied : w.tree.locate w.directory (copyPlace source).toPath with
  | ok place =>
    rw [hcopied] at hfind
    obtain rfl := FileTree.locate_toPath hcopy hcopied
    rw [FileTree.locate_of_isAbsolute (FileTree.isAbsolute_toPath _) _ _ .root] at hcopied
    exact ⟨hcopied, Except.ok.inj hfind⟩
  -- a path that is too long is not one by which nothing is found, but one that cannot be asked for
  | error cause =>
    rw [hcopied] at hfind
    rw [FileTree.locate_of_isAbsolute (FileTree.isAbsolute_toPath _) _ _ .root] at hcopied
    rw [hsource] at hlocate
    rw [hsource, copyPlace_snoc dirs hname] at hcopied
    obtain rfl := FileTree.eq_tooLong_of_locate_sibling hlocate hcopied
    exact absurd hfind (by simp)

/-! ## Stages -/

/-- A file that was staged: its path leads to it, and that of its copy to the copy, if it has
one. -/
structure Reached (w : Workspace) (source : Location) : Prop where
  itself : w.tree.locate .root source.toPath = .ok source
  copied : hasCopy w source = true →
    w.tree.locate .root (copyPlace source).toPath = .ok (copyPlace source)

/-- Where staging stands after some files, whatever files they are: what the compiler is given for
them, whose copies were made, and that these copies are all that has come to the tree. -/
structure Entered (w : Workspace) (done : List Location) (s : Staging) : Prop
    extends Staged w done s where
  reached : ∀ source ∈ done, Reached w source
  adds : w.tree.Adds s.tree (copyFiles w done)

theorem entered_start (w : Workspace) : Entered w [] (start w.tree) where
  toStaged := staged_start w
  reached _ hsource := absurd hsource List.not_mem_nil
  adds := .refl _

namespace Entered

/-- The copies that were made are where the added files are. -/
theorem map_fst_copies (h : Entered w done s) :
    s.copies.map (·.1) = (copyFiles w done).map (·.1) := by
  unfold copyFiles
  rw [h.copies, List.map_map, List.map_map]
  rfl

/-- A file that can be read at some stage has the text that it had at first, or it is a copy and its
text has been retagged. Either way, retagging changes it now if it was to have a copy at first. -/
theorem hasCopy_eq (h : Entered w done s) (hcanonical : source.IsCanonical) {text : List Char}
    (hread : s.reading.readText source.toPath = .ok text) :
    hasCopy w source = (Marker.retag (.ofList text) != .ofList text) ∧
      (hasCopy w source = true → copyText w source = Marker.retag (.ofList text)) := by
  obtain ⟨hlocate, content, hentry, htext⟩ := exists_content_of_readText hcanonical hread
  have hbefore := h.adds.locate hlocate
  rcases h.adds.entry?_cases hentry with ⟨copied, hmem, hfile⟩ | hold
  -- the file is a copy: nothing was there at first, and its text has been retagged
  · obtain ⟨p, -, hp⟩ := List.mem_map.mp hmem
    obtain ⟨rfl, rfl⟩ := Prod.mk.inj hp
    obtain rfl := FileTree.Entry.file.inj hfile
    rw [Workspace.textOf_encode (return_not_mem_copyText w p)] at htext
    obtain rfl := Except.ok.inj htext
    have hnone : hasCopy w (copyPlace p) = false := by
      unfold hasCopy
      split
      · rename_i found hfound
        obtain ⟨-, there, hthere, -⟩ := exists_content_of_readText hcanonical hfound
        have hfresh := h.adds.fresh _ hmem
        rw [hthere] at hfresh
        exact absurd hfresh (by simp)
      · rfl
    rw [String.ofList_toList, retag_copyText, bne_self_eq_false, hnone]
    exact ⟨rfl, fun hcopy => absurd hcopy Bool.false_ne_true⟩
  -- the file was there at first, with the same content
  · have hfirst : w.readText source.toPath = .ok text := by
      obtain ⟨hnull, -⟩ := Workspace.readText_eq_ok_iff.mp hread
      refine Workspace.readText_eq_ok_iff.mpr ⟨hnull, source, content, ?_, hold, htext⟩
      rw [FileTree.locate_of_isAbsolute (FileTree.isAbsolute_toPath _) _ _ .root]
      exact hbefore
    exact ⟨Staging.hasCopy_eq hfirst, fun _ => copyText_eq hfirst⟩

/-- **One more file**, if it can be staged: it is given as it is, or as its copy, which is written
where nothing is. -/
theorem add (h : Entered w done s) (hroot : w.tree.entry? .root = some .directory)
    (hcanonical : source.IsCanonical) (hadd : s.add source = .ok next) :
    Entered w (done ++ [source]) next := by
  obtain ⟨text, hread, hcases⟩ := add_eq_ok hadd
  obtain ⟨hcopy, htext⟩ := h.hasCopy_eq hcanonical hread
  obtain ⟨hlocate, content, hentry, -⟩ := exists_content_of_readText hcanonical hread
  have hreached (hlast : Reached w source) : ∀ p ∈ done ++ [source], Reached w p := by
    intro p hp
    rcases List.mem_append.mp hp with hp | hp
    · exact h.reached p hp
    · rwa [List.mem_singleton.mp hp]
  rcases hcases with ⟨hsame, rfl⟩ | ⟨hdiffers, hfind, tree, log, hwrite, rfl⟩
  -- the file is given as it is
  · rw [hsame, bne_self_eq_false] at hcopy
    have hlast : Reached w source :=
      ⟨h.adds.locate hlocate, fun hcopied => absurd (hcopy ▸ hcopied) Bool.false_ne_true⟩
    refine ⟨h.snoc_plain hcopy, hreached hlast, ?_⟩
    rw [copyFiles, List.filter_append, List.filter_cons_of_neg (by rw [hcopy]; decide),
      List.filter_nil, List.append_nil]
    exact h.adds
  -- its copy is given, which is a file more
  · obtain rfl := Except.ok.inj hwrite
    rw [bne_iff_ne.mpr hdiffers] at hcopy
    have hsource : source ≠ .root := by
      rintro rfl
      have hentry : s.tree.entry? .root = some (.file content) := hentry
      rw [h.grown _ _ hroot] at hentry
      exact absurd hentry (by simp)
    obtain ⟨hcopied, hnothing⟩ := locate_copyPlace_of_find? hcanonical hsource hlocate hfind
    have hlast : Reached w source := ⟨h.adds.locate hlocate, fun _ => h.adds.locate hcopied⟩
    refine ⟨h.snoc_copy hcopy hnothing _ log, hreached hlast, ?_⟩
    rw [copyFiles, List.filter_append, List.filter_cons_of_pos hcopy, List.filter_nil,
      List.map_append, ← htext hcopy]
    exact h.adds.write hnothing _

end Entered

/-! ## All files -/

/-- **Removing the copies gives the first tree back.** -/
theorem tree_cleaned (h : Entered w done s) : s.cleaned.tree = w.tree := by
  rw [← h.adds.removed, ← h.map_fst_copies, List.foldl_map]
  rfl

/-- Where staging stands after all files, if it was not stopped. -/
theorem entered_enter {sources : List Location} (hroot : w.tree.entry? .root = some .directory)
    (hcanonical : ∀ source ∈ sources, source.IsCanonical)
    (henter : enter w.tree sources = (s, none)) : Entered w sources s :=
  (enter_induction (entered_start w) fun hmem h hadd =>
    h.add hroot (hcanonical _ hmem) hadd).1 henter

/-- If staging is stopped, the tree is the first one again. -/
theorem tree_enter_of_failure {sources : List Location} {f : Failure}
    (hroot : w.tree.entry? .root = some .directory)
    (hcanonical : ∀ source ∈ sources, source.IsCanonical)
    (henter : enter w.tree sources = (s, some f)) : s.tree = w.tree := by
  obtain ⟨done, stopped, h, rfl⟩ := (enter_induction (entered_start w) fun hmem h hadd =>
    h.add hroot (hcanonical _ hmem) hadd).2 henter
  exact tree_cleaned h

/-! ## A file with a marker and one without -/

/-- A tree with a file that gets a copy and one that gets none. -/
def sample : Workspace where
  tree :=
    { directories := [⟨["src"]⟩]
      files := [(⟨["src", "a.ts"]⟩, Utf8.encode "// @ts-expect-error: x\n1".toList),
        (⟨["src", "b.ts"]⟩, Utf8.encode "2".toList)] }
  directory := .root
  home := .root
  input := ""

/-- Inputs that lead to the files of the sample. -/
def sampleInputs : List String := ["src/a.ts", "/src/../src/b.ts"]

/-- The files of the sample. -/
def sampleSources : List Location := [⟨["src", "a.ts"]⟩, ⟨["src", "b.ts"]⟩]

example : (enter sample.tree sampleSources).1.places =
    [⟨["src", "a.ts-expect-error.ts"]⟩, ⟨["src", "b.ts"]⟩] := by
  decide

end Staging

end ExpectedDiagnostics
