import ExpectedDiagnostics.Proofs.Compiler.ProjectFile
import ExpectedDiagnostics.Proofs.Compiler.Stages

/-!
# Collecting from a run of the compiler

When all files can be staged and the compiler can be called, nothing stands between its listing and
the diagnostics that are collected: the files are staged, the listing is read, and what it tells of
the copies is moved to their sources.

Main results:

* `call_result` — what a call gives is what its listing is read as.
* `collect_of_reports` — the diagnostics that a run tells of, with the copies in place of their
  sources, are collected in order and without repetitions.
-/

namespace ExpectedDiagnostics

namespace FileTree

variable {t : FileTree}

/-- Where a path leads to a directory, the root is one. -/
theorem entry?_root_of_follow {names : List String} {place : Location}
    (h : t.follow .root names = .ok place) (hentry : t.entry? place = some .directory) :
    t.entry? .root = some .directory := by
  cases names with
  | nil =>
    obtain rfl := Except.ok.inj h
    exact hentry
  | cons name names =>
    rw [follow] at h
    split at h
    · rename_i hroot
      exact hroot
    · exact absurd h (by simp)
    · exact absurd h (by simp)

/-- Where a directory is found by the path of a place, the names of the place lead to it. -/
theorem exists_follow_of_find? {here place : Location}
    (h : t.find? here place.toPath = .ok (some .directory)) :
    ∃ found, t.follow .root place.names = .ok found ∧ t.entry? found = some .directory := by
  unfold find? at h
  split at h
  · exact absurd h (by simp)
  rw [locate_toPath_eq] at h
  by_cases hlong : pathLimit < place.toPath.toString.utf8ByteSize
  · rw [if_pos hlong] at h
    exact absurd h (by simp)
  · rw [if_neg hlong] at h
    cases hfollow : t.follow .root place.names with
    | ok found =>
      rw [hfollow] at h
      exact ⟨found, rfl, Except.ok.inj h⟩
    | error cause =>
      rw [hfollow] at h
      cases cause <;> exact absurd h (by simp)

end FileTree

namespace Compiler

variable {c : Compiler} {w : Workspace}

/-! ## What a run needs -/

/-- Inputs that lead to files which can be read as text, no two of them to the same one, and none of
them with something in the way of its copy. -/
structure HasInputs (w : Workspace) (inputs : List String) (sources : List Location) : Prop where
  directory : w.directory.IsCanonical
  nonempty : inputs ≠ []
  resolved : w.resolveAll (inputs.map Path.ofString) = .ok sources
  distinct : sources.Nodup
  readable : ∀ source ∈ sources, ∃ text, w.readText source.toPath = .ok text
  free : ∀ source ∈ sources, Staging.hasCopy w source = true →
    w.tree.entry? (Staging.copyPlace source) = none

/-- A compiler that can be called: its command line has words, its directory and its configuration
file can be resolved, and the directory that the project file goes to exists. -/
structure Callable (c : Compiler) (w : Workspace) (directory config : Option Location) : Prop where
  command : ∃ words, ShellWords.split c.command = .ok words
  resolved : resolve? w c.directory = .ok directory
  resolvedConfig : resolve? w c.config = .ok config
  exists_directory : w.find? (projectDirectory (directory.getD w.directory) config).toPath =
    .ok (some .directory)

/-- What the file system and the format of project files allow: copies and project file fit where
they go, and JSON has a form for the options, if they are used. -/
structure WithinLimits (c : Compiler) (w : Workspace) (sources : List Location)
    (directory config : Option Location) : Prop where
  copies : ∀ source ∈ sources, Staging.hasCopy w source = true →
    FileTree.Fits (Staging.copyPlace source)
  project : FileTree.Fits
    (projectPlace w.tree (projectDirectory (directory.getD w.directory) config))
  options : config = none → Json.canWrite (.table c.options) = true

/-- An executor whose calls all end well and print a listing. -/
def Prints (execute : Executor) (output : String) : Prop :=
  ∀ call, ∃ status ∈ goodStatuses, ∃ errors, execute call = .exited status output errors

/-- A run that reports diagnostics: files are staged, the compiler is called, and its listing tells
of the diagnostics with the copies in place of their sources. None of them is about a copy
itself. -/
structure Reports (c : Compiler) (w : Workspace) (execute : Executor) (inputs : List String)
    (sources : List Location) (directory config : Option Location) (ds : List Diagnostic) :
    Prop where
  hasInputs : HasInputs w inputs sources
  callable : c.Callable w directory config
  foreign : ∀ d ∈ ds, ∀ source ∈ sources, Staging.hasCopy w source = true →
    d.file ≠ some (Staging.copyPlace source).toString
  prints : Prints execute (Listing.print (ds.map (Staging.restaged w sources)))

theorem isCanonical_of_resolveAll {inputs : List String} {sources : List Location}
    (hdirectory : w.directory.IsCanonical)
    (h : w.resolveAll (inputs.map Path.ofString) = .ok sources) :
    ∀ source ∈ sources, source.IsCanonical := by
  induction inputs generalizing sources with
  | nil =>
    obtain rfl := Except.ok.inj h
    exact fun source hsource => absurd hsource List.not_mem_nil
  | cons input inputs ih =>
    rw [List.map_cons, Workspace.resolveAll] at h
    obtain ⟨first, hfirst, h⟩ := exists_of_bind_eq_ok h
    obtain ⟨rest, hrest, h⟩ := exists_of_bind_eq_ok h
    obtain rfl := Except.ok.inj h
    exact List.forall_mem_cons.mpr
      ⟨Path.isCanonical_of_resolve hdirectory (exists_of_mapError_eq_ok hfirst), ih hrest⟩

section

variable {inputs : List String} {sources : List Location} {directory config : Option Location}

theorem HasInputs.stageable (h : HasInputs w inputs sources)
    (hfits : ∀ source ∈ sources, Staging.hasCopy w source = true →
      FileTree.Fits (Staging.copyPlace source)) :
    ∀ source ∈ sources, Staging.Stageable w source :=
  fun source hsource => ⟨isCanonical_of_resolveAll h.directory h.resolved source hsource,
    h.readable source hsource, h.free source hsource, hfits source hsource⟩

theorem HasInputs.isEmpty_eq_false (h : HasInputs w inputs sources) :
    (inputs.map Path.ofString).isEmpty = false := by
  rw [List.isEmpty_eq_false_iff, Ne, List.map_eq_nil_iff]
  exact h.nonempty

namespace Callable

theorem entry?_root (h : Callable c w directory config) :
    w.tree.entry? .root = some .directory := by
  obtain ⟨found, hfollow, hentry⟩ :=
    FileTree.exists_follow_of_find? (exists_of_mapError_eq_ok h.exists_directory)
  exact FileTree.entry?_root_of_follow hfollow hentry

/-- The path of the project file leads somewhere. -/
theorem exists_locate (h : Callable c w directory config)
    (hfits : FileTree.Fits
      (projectPlace w.tree (projectDirectory (directory.getD w.directory) config))) :
    ∃ found, w.tree.locate .root
      (projectPlace w.tree (projectDirectory (directory.getD w.directory) config)).toPath =
        .ok found := by
  obtain ⟨found, hfollow, hentry⟩ :=
    FileTree.exists_follow_of_find? (exists_of_mapError_eq_ok h.exists_directory)
  obtain ⟨n, hn, -⟩ :=
    projectPlace_spec w.tree (projectDirectory (directory.getD w.directory) config)
  rw [hn, candidate_eq] at hfits ⊢
  exact FileTree.exists_locate_snoc hfollow hentry hfits .root

/-- All files are staged, and the path of the project file leads somewhere in the tree with the
copies. -/
theorem exists_staged (h : Callable c w directory config) (hinputs : HasInputs w inputs sources)
    (hcopies : ∀ source ∈ sources, Staging.hasCopy w source = true →
      FileTree.Fits (Staging.copyPlace source))
    (hproject : FileTree.Fits
      (projectPlace w.tree (projectDirectory (directory.getD w.directory) config))) :
    ∃ s found, Staging.enter w.tree sources = (s, none) ∧ Staging.Staged w sources s ∧
      s.tree.locate .root
        (projectPlace s.tree (projectDirectory (directory.getD w.directory) config)).toPath =
          .ok found := by
  have hall := hinputs.stageable hcopies
  obtain ⟨s, henter, hs⟩ := Staging.exists_enter h.entry?_root hall hinputs.distinct
  obtain ⟨found, hlocate⟩ := h.exists_locate hproject
  refine ⟨s, found, henter, hs, ?_⟩
  rw [projectPlace_staged hs h.entry?_root hall]
  exact hs.grown.locate hlocate

end Callable

theorem canWrite_project (hoptions : config = none → Json.canWrite (.table c.options) = true)
    (places : List Location) : Json.canWrite (c.project config places) = true := by
  have hplaces : Json.canWriteItems (places.map fun p => .text p.toString) = true := by
    induction places with
    | nil => rfl
    | cons p places ih => exact ih
  unfold project
  cases config with
  | none =>
    have hoptions := hoptions rfl
    simp only [Json.canWrite, Json.canWriteFields, Json.canWriteItems, hplaces, Bool.true_and,
      Bool.and_true] at hoptions ⊢
    exact hoptions
  | some config =>
    simp only [Json.canWrite, Json.canWriteFields, Json.canWriteItems, hplaces, Bool.true_and]

end

/-! ## What a run gives -/

variable {s : Staging} {execute : Executor} {output : String}

/-- What a call gives is what comes of it, if that is no listing, and otherwise what the listing is
read as. -/
theorem call_result_of_listing (execute : Executor) {here found : Location}
    {config : Option Location} {command : List String}
    (hlocate : s.tree.locate .root (projectPlace s.tree (projectDirectory here config)).toPath =
      .ok found)
    (hwrite : Json.canWrite (c.project config s.places) = true)
    (hwords : ShellWords.split c.command = .ok command) :
    ∃ words told, (c.call here config execute s).diagnostics here =
      (c.listing words (execute told)).2.bind fun output =>
        (Listing.read here output.toList).mapError .unresolved := by
  unfold call
  simp only [FileTree.reach_of_locate hlocate, hwrite, hwords]
  exact ⟨_, _, rfl⟩

/-- What a call gives is what its listing is read as. -/
theorem call_result {here found : Location} {config : Option Location} {words : List String}
    (hlocate : s.tree.locate .root (projectPlace s.tree (projectDirectory here config)).toPath =
      .ok found)
    (hwrite : Json.canWrite (c.project config s.places) = true)
    (hwords : ShellWords.split c.command = .ok words) (hprints : Prints execute output) :
    (c.call here config execute s).diagnostics here =
      (Listing.read here output.toList).mapError .unresolved := by
  obtain ⟨words, told, hresult⟩ := call_result_of_listing execute hlocate hwrite hwords
  have hlisting : (c.listing words (execute told)).2 = .ok output := by
    obtain ⟨status, hstatus, errors, hexited⟩ := hprints told
    unfold listing
    rw [hexited]
    dsimp only
    rw [if_pos (List.contains_iff_mem.mpr hstatus)]
  rw [hresult, hlisting]
  rfl

/-- **What a run tells of is collected**: the diagnostics that are printed with the copies in place
of their sources, in order and without repetitions. -/
theorem collect_of_reports {inputs : List String} {sources : List Location}
    {directory config : Option Location} {ds : List Diagnostic}
    (h : c.Reports w execute inputs sources directory config ds)
    (hlimits : c.WithinLimits w sources directory config)
    (hds : ∀ d ∈ ds, Listing.Printable d) :
    (c.collect w execute (inputs.map Path.ofString)).collected.result =
      .ok (Diagnostic.tidy ds) := by
  obtain ⟨hinputs, hcallable, hforeign, hprints⟩ := h
  have hroot := hcallable.entry?_root
  have hall := hinputs.stageable hlimits.copies
  obtain ⟨s, found, henter, hs, hlocate⟩ :=
    hcallable.exists_staged hinputs hlimits.copies hlimits.project
  obtain ⟨words, hwords⟩ := hcallable.command
  have hrestaged : ∀ d ∈ ds.map (Staging.restaged w sources), Listing.Printable d := by
    intro d hd
    obtain ⟨e, he, rfl⟩ := List.mem_map.mp hd
    exact Staging.printable_restaged (hds e he) hall hroot
  have hread := Listing.read_of_splitLines hrestaged (Listing.splitLines_print hrestaged)
    (directory.getD w.directory)
  have hcall : (c.call (directory.getD w.directory) config execute s).diagnostics
      (directory.getD w.directory) = .ok (ds.map (Staging.restaged w sources)) := by
    rw [call_result hlocate (canWrite_project hlimits.options s.places) hwords hprints, hread]
    rfl
  have hback := hs.mapBack_restaged hroot hall hds hforeign w.directory
  rw [result_collect hinputs.isEmpty_eq_false hcallable.resolved hinputs.resolved
    hcallable.resolvedConfig henter, hcall]
  simp only [Except.bind, hback]
  rfl

/-! ## Beyond the limits -/

/-- A run stops at the first file, if what is at the place of its copy cannot even be asked for. -/
theorem collect_of_find?_error {inputs : List String} {source : Location}
    {sources : List Location} {directory : Option Location} {f : Failure}
    (hinputs : HasInputs w inputs (source :: sources))
    (hresolved : resolve? w c.directory = .ok directory)
    (hcopy : Staging.hasCopy w source = true)
    (hfind : w.find? (Staging.copyPlace source).toPath = .error f) :
    (c.collect w execute (inputs.map Path.ofString)).collected.result = .error f := by
  obtain ⟨text, hread⟩ := hinputs.readable source List.mem_cons_self
  have hreads : (⟨w.tree, .root, .root, ""⟩ : Workspace).readText source.toPath = .ok text :=
    Workspace.readText_of_extends (.refl _) (FileTree.isAbsolute_toPath _) hread
  have hretag := Staging.hasCopy_eq hread
  rw [hcopy, eq_comm, bne_iff_ne] at hretag
  have hfinds := w.find?_of_isAbsolute ⟨w.tree, .root, .root, ""⟩ rfl
    (FileTree.isAbsolute_toPath (Staging.copyPlace source))
  rw [hfind] at hfinds
  have hadd := Staging.add_of_find?_error (s := Staging.start w.tree) hreads hretag hfinds
  have henter : Staging.enter w.tree (source :: sources) =
      ((Staging.start w.tree).cleaned, some f) := by
    unfold Staging.enter
    simp only [Staging.addAll, hadd]
    rfl
  exact result_collect_of_failure hinputs.isEmpty_eq_false hresolved hinputs.resolved henter execute

/-- A run comes to nothing, if JSON has no form for options that are used. -/
theorem collect_of_unwritable {inputs : List String} {sources : List Location}
    {directory : Option Location} (hinputs : HasInputs w inputs sources)
    (hcallable : Callable c w directory none)
    (hcopies : ∀ source ∈ sources, Staging.hasCopy w source = true →
      FileTree.Fits (Staging.copyPlace source))
    (hproject : FileTree.Fits
      (projectPlace w.tree (projectDirectory (directory.getD w.directory) none)))
    (hoptions : Json.canWrite (.table c.options) = false) :
    ∃ project, (c.collect w execute (inputs.map Path.ofString)).collected.result =
      .error (.unwritable project) := by
  obtain ⟨s, found, henter, hs, hlocate⟩ := hcallable.exists_staged hinputs hcopies hproject
  have hcannot : Json.canWrite (c.project none s.places) = false := by
    unfold project
    simp only [Json.canWrite, Json.canWriteFields] at hoptions ⊢
    rw [hoptions, Bool.false_and, Bool.and_false, Bool.and_false]
  refine ⟨c.project none s.places, ?_⟩
  rw [result_collect hinputs.isEmpty_eq_false hcallable.resolved hinputs.resolved
    hcallable.resolvedConfig henter]
  unfold call
  simp only [FileTree.reach_of_locate hlocate, hcannot]
  rfl

end Compiler

end ExpectedDiagnostics
