import ExpectedDiagnostics.Proofs.Failure.Capture
import ExpectedDiagnostics.Proofs.Resolved
import ExpectedDiagnostics.Proofs.Staging.Inputs

/-!
# How runs of the compiler fail

Whatever comes of a call of the compiler is told as a problem of the checker's kind, and so is a
file that is in the way of a copy. What keeps the compiler from being called at all is not
(`Stops`): a path that the file system does not take, a project that cannot be written, and a
command line that cannot be cut into words.

Main results:

* `Staging.isChecker_or_file_of_enter` — what staging files that can be read fails with.
* `failsAsChecker_listing` — what a call of the compiler fails with.
* `failsAsChecker_iff` — when a run fails with problems of the checker's kind only.
-/

namespace ExpectedDiagnostics

/-! ## Staging -/

namespace Staging

variable {w : Workspace} {source : Location} {done sources : List Location} {s : Staging}

/-- A file with a text. -/
def HasText (w : Workspace) (source : Location) : Prop :=
  ∃ content text, w.tree.entry? source = some (.file content) ∧
    Workspace.textOf content = .ok text

/-- Staging a file with a text fails with a problem of the checker's kind, or with a fault of a
path. -/
theorem Entered.isChecker_or_file (h : Entered w done s) (hcanonical : source.IsCanonical)
    (htext : HasText w source) {f : Failure} (hf : s.add source = .error f) :
    f.IsChecker ∨ ∃ fault, f = .file fault := by
  obtain ⟨content, text, hentry, hcontent⟩ := htext
  -- it cannot be read, what is where its copy goes cannot be told, or something is there; writing
  -- a file where nothing is does not fail
  rcases Staging.add_eq_error hf with hread | hfind | rfl | ⟨copy, hwrite⟩
  · rcases s.reading.readText_cases (Path.hasNull_toPath hcanonical) with
      ⟨other, hok⟩ | ⟨octets, fault, hoctets, hdecode, -⟩ | ⟨fault, -, herror⟩
    · exact nomatch hread.symm.trans hok
    -- the file is as it was at first, and so its octets are a text
    · obtain ⟨-, hoctets⟩ := Workspace.read_of_readOctets hoctets
      obtain ⟨place, hlocate, hplace⟩ := FileTree.read_eq_ok_iff.mp hoctets
      obtain rfl := FileTree.locate_toPath hcanonical hlocate
      have hsame : s.reading.tree.entry? place = some (.file content) := h.grown _ _ hentry
      obtain rfl := FileTree.Entry.file.inj (Option.some.inj (hplace.symm.trans hsame))
      obtain ⟨cs, hcs, -⟩ := exists_of_bind_eq_ok hcontent
      exact nomatch hdecode.symm.trans hcs
    · exact .inr ⟨fault, Except.error.inj (hread.symm.trans herror)⟩
  · obtain ⟨fault, -, hfault⟩ := exists_of_mapError_eq_error hfind
    exact .inr ⟨fault, hfault⟩
  · exact .inl ⟨_, rfl, rfl⟩
  · exact nomatch hwrite

/-- Staging files with a text fails with a problem of the checker's kind, or with a fault of a
path. -/
theorem Entered.isChecker_or_file_of_addAll (h : Entered w done s)
    (hroot : w.tree.entry? .root = some .directory)
    (hcanonical : ∀ source ∈ sources, source.IsCanonical)
    (htexts : ∀ source ∈ sources, HasText w source) {f : Failure}
    (hf : (s.addAll sources).2 = some f) : f.IsChecker ∨ ∃ fault, f = .file fault := by
  induction sources generalizing done s with
  | nil => exact nomatch hf
  | cons source sources ih =>
    obtain ⟨hplace, hplaces⟩ := List.forall_mem_cons.mp hcanonical
    obtain ⟨htext, htexts⟩ := List.forall_mem_cons.mp htexts
    rw [Staging.addAll] at hf
    cases hadd : s.add source with
    | error g =>
      rw [hadd] at hf
      obtain rfl := Option.some.inj hf
      exact h.isChecker_or_file hplace htext hadd
    | ok next =>
      rw [hadd] at hf
      exact ih (h.add hroot hplace hadd) hplaces htexts hf

theorem isChecker_or_file_of_enter (hroot : w.tree.entry? .root = some .directory)
    (hcanonical : ∀ source ∈ sources, source.IsCanonical)
    (htexts : ∀ source ∈ sources, HasText w source) {f : Failure}
    (hf : enter w.tree sources = (s, some f)) : f.IsChecker ∨ ∃ fault, f = .file fault :=
  (entered_start w).isChecker_or_file_of_addAll hroot hcanonical htexts (Prod.mk.inj hf).2

/-- Inputs that are loaded lead to files with a text. -/
theorem hasText_of_loadedFrom {input : String} (h : LoadedFrom w source input) :
    HasText w source := by
  obtain ⟨hresolve, loaded, hload⟩ := h
  obtain ⟨text, hread, -⟩ := Source.exists_readText_of_load hload
  obtain ⟨-, place, content, hlocate, hentry, htext⟩ := Workspace.readText_eq_ok_iff.mp hread
  obtain rfl : place = source := by
    rw [FileTree.eq_place_of_locate hlocate,
      Path.eq_place_of_resolve (exists_of_mapError_eq_ok hresolve)]
  exact ⟨content, text, hentry, htext⟩

end Staging

/-! ## The call -/

namespace Compiler

variable {c : Compiler} {w : Workspace} {execute : Executor} {s : Staging}

/-- Whatever comes of a call, it is told as a problem of the checker's kind, if it is no listing. -/
theorem failsAsChecker_listing (c : Compiler) (words : List String) (execution : Execution) :
    FailsAsChecker (c.listing words execution).2 := by
  unfold listing
  cases execution with
  | notFound => exact failsAsChecker_error_iff.mpr ⟨_, rfl, rfl⟩
  | timedOut => exact failsAsChecker_error_iff.mpr ⟨_, rfl, rfl⟩
  | exited status output errors =>
    dsimp only
    split
    · exact failsAsChecker_ok output
    · exact failsAsChecker_error_iff.mpr ⟨_, rfl, rfl⟩

/-- A listing is what the compiler has printed before it ended. -/
theorem exited_of_listing {words : List String} {execution : Execution} {output : String}
    (h : (c.listing words execution).2 = .ok output) :
    ∃ status errors, execution = .exited status output errors := by
  unfold listing at h
  cases execution with
  | notFound => exact nomatch h
  | timedOut => exact nomatch h
  | exited status printed errors =>
    dsimp only at h
    split at h
    · exact ⟨status, errors, by rw [Except.ok.inj h]⟩
    · exact nomatch h

/-- What keeps the compiler from being called once files are staged: the path of the project file
leads nowhere or is too long, the project cannot be written, or the command line is none. -/
def Uncallable (c : Compiler) (here : Location) (config : Option Location) (s : Staging) : Prop :=
  (∃ cause, s.tree.locate .root (projectPlace s.tree (projectDirectory here config)).toPath =
      .error cause) ∨
    Json.canWrite (c.project config s.places) = false ∨
    ∃ fault, ShellWords.split c.command = .error fault

section

variable {here : Location} {config : Option Location}

/-- What keeps the compiler from being called is no problem of the checker's kind. -/
theorem exists_error_of_uncallable (h : c.Uncallable here config s) :
    ∃ f, (c.call here config execute s).diagnostics here = .error f ∧ ¬ f.IsChecker := by
  unfold Uncallable at h
  unfold call
  simp only [FileTree.disk_reach]
  cases hlocate : s.tree.locate .root
      (projectPlace s.tree (projectDirectory here config)).toPath with
  | error cause => exact ⟨_, rfl, Failure.not_isChecker fun _ hp => nomatch hp⟩
  | ok found =>
    cases hwrite : Json.canWrite (c.project config s.places) with
    | false => exact ⟨_, rfl, Failure.not_isChecker fun _ hp => nomatch hp⟩
    | true =>
      obtain ⟨fault, hfault⟩ : ∃ fault, ShellWords.split c.command = .error fault := by
        rcases h with ⟨cause, hcause⟩ | hno | hfault
        · exact nomatch hlocate.symm.trans hcause
        · exact nomatch hwrite.symm.trans hno
        · exact hfault
      rw [hfault]
      exact ⟨_, rfl, Failure.not_isChecker fun _ hp => nomatch hp⟩

/-- A call that is made comes to diagnostics or to a problem of the checker's kind. -/
theorem failsAsChecker_call (h : ¬ c.Uncallable here config s) (hhere : NullFree here.names)
    (houtputs : ∀ call status output errors, execute call = .exited status output errors →
      Listing.WithoutNull output.toList) :
    FailsAsChecker ((c.call here config execute s).diagnostics here) := by
  unfold Uncallable at h
  push Not at h
  obtain ⟨hlocate, hwrite, hsplit⟩ := h
  obtain ⟨found, hfound⟩ := exists_ok_of_ne_error hlocate
  obtain ⟨command, hcommand⟩ := exists_ok_of_ne_error hsplit
  obtain ⟨words, told, hresult⟩ := call_result_of_listing execute hfound
    (Bool.not_eq_false _ ▸ hwrite) hcommand
  rw [hresult]
  cases hlisting : (c.listing words (execute told)).2 with
  | error f => exact failsAsChecker_error_iff.mpr (c.failsAsChecker_listing words _ f hlisting)
  | ok output =>
    have hfree : Listing.WithoutNull output.toList := by
      obtain ⟨status, errors, hexited⟩ := exited_of_listing hlisting
      exact houtputs told status output errors hexited
    obtain ⟨ds, hds⟩ := Listing.exists_read hhere hfree
    show FailsAsChecker ((Listing.read here output.toList).mapError _)
    rw [hds]
    exact failsAsChecker_ok ds

end

/-! ## The run -/

/-- What a run is given: files that can be loaded, and, if there are any, a directory and a
configuration file that can be resolved. -/
structure Given (c : Compiler) (w : Workspace) (inputs : List String) (sources : List Location)
    (directory config : Option Location) : Prop where
  canonical : w.directory.IsCanonical
  root : w.tree.entry? .root = some .directory
  loaded : ∀ input ∈ inputs, ∃ loaded, Source.load w (.ofString input) = .ok loaded
  resolved : w.resolveAll (inputs.map Path.ofString) = .ok sources
  resolvedDirectory : resolve? w c.directory = .ok directory
  resolvedConfig : resolve? w c.config = .ok config

/-- What stops a run before it comes to a call: a path that the file system does not take, for a
copy, or what keeps the compiler from being called. -/
def Stops (c : Compiler) (w : Workspace) (here : Location) (config : Option Location)
    (sources : List Location) : Prop :=
  (∃ s fault, Staging.enter w.tree sources = (s, some (.file fault))) ∨
    ∃ s, Staging.enter w.tree sources = (s, none) ∧ c.Uncallable here config s

section

variable {inputs : List String} {sources : List Location} {directory config : Option Location}

/-- Once files are staged, only what keeps the compiler from being called stops a run. -/
theorem stops_iff_of_staged {here : Location}
    (henter : Staging.enter w.tree sources = (s, none)) :
    c.Stops w here config sources ↔ c.Uncallable here config s := by
  unfold Stops
  rw [henter]
  constructor
  · rintro (⟨t, fault, heq⟩ | ⟨t, heq, huncallable⟩)
    · exact nomatch (Prod.mk.inj heq).2
    · rwa [(Prod.mk.inj heq).1]
  · exact fun huncallable => .inr ⟨s, rfl, huncallable⟩

theorem stops_iff_of_failure {here : Location} {f : Failure}
    (henter : Staging.enter w.tree sources = (s, some f)) :
    c.Stops w here config sources ↔ ∃ fault, f = .file fault := by
  unfold Stops
  rw [henter]
  constructor
  · rintro (⟨t, fault, heq⟩ | ⟨t, heq, -⟩)
    · exact ⟨fault, Option.some.inj (Prod.mk.inj heq).2⟩
    · exact nomatch (Prod.mk.inj heq).2
  · rintro ⟨fault, rfl⟩
    exact .inl ⟨s, fault, rfl⟩

/-- The directory that a run is called in has no null character in its names. -/
theorem Given.nullFree (h : c.Given w inputs sources directory config) :
    NullFree (directory.getD w.directory).names := by
  have hresolved := h.resolvedDirectory
  unfold resolve? at hresolved
  split at hresolved
  · obtain rfl := Except.ok.inj hresolved
    exact h.canonical.nullFree
  · rename_i p _
    cases hp : w.resolve p with
    | error f =>
      rw [hp] at hresolved
      exact nomatch hresolved
    | ok place =>
      rw [hp] at hresolved
      obtain rfl := Except.ok.inj hresolved
      exact Path.nullFree_of_resolve (exists_of_mapError_eq_ok hp)

/-- A run on files is that of the call on them. -/
theorem Given.result_collect (h : c.Given w inputs sources directory config) (hinputs : inputs ≠ [])
    (execute : Executor) : (c.collect w execute (inputs.map Path.ofString)).collected.result =
      (c.callOn (told w.directory) w.tree w.directory (directory.getD w.directory) execute
        sources).collected.result := by
  have hempty : (inputs.map Path.ofString).isEmpty = false := by
    rw [List.isEmpty_eq_false_iff, Ne, List.map_eq_nil_iff]
    exact hinputs
  rw [collect_of_resolved hempty h.resolvedDirectory h.resolved]

/-- A run on staged files fails with problems of the checker's kind only, unless the compiler cannot
be called. -/
theorem Given.failsAsChecker_of_staged (h : c.Given w inputs sources directory config)
    (henter : Staging.enter w.tree sources = (s, none))
    (houtputs : ∀ call status output errors, execute call = .exited status output errors →
      Listing.WithoutNull output.toList) :
    FailsAsChecker (c.callOn (told w.directory) w.tree w.directory (directory.getD w.directory)
        execute sources).collected.result ↔
      ¬ c.Uncallable (directory.getD w.directory) config s := by
  rw [result_callOn h.resolvedConfig henter]
  by_cases huncallable : c.Uncallable (directory.getD w.directory) config s
  · obtain ⟨f, hf, hnot⟩ := exists_error_of_uncallable huncallable
    rw [hf]
    exact iff_of_false (fun hall => hnot (hall f rfl)) (not_not_intro huncallable)
  refine iff_of_true ?_ huncallable
  have hcall := failsAsChecker_call huncallable h.nullFree houtputs
  cases hresult : (c.call (directory.getD w.directory) config execute s).diagnostics
      (directory.getD w.directory) with
  | error f => exact failsAsChecker_error_iff.mpr (hcall f hresult)
  | ok ds =>
    -- what the call gives is moved back, because its files can be resolved
    obtain ⟨back, hback, -⟩ :=
      s.mapBack_movedBack
        (Diagnostic.allResolve_of_resolved (Called.resolved_diagnostics hresult) w.directory)
    dsimp only [Except.bind]
    rw [hback]
    exact failsAsChecker_ok (Diagnostic.tidy back)

/-- Staging the files of a run fails with a problem of the checker's kind, or with a fault of a
path. -/
theorem Given.isChecker_or_file (h : c.Given w inputs sources directory config) {f : Failure}
    (henter : Staging.enter w.tree sources = (s, some f)) :
    f.IsChecker ∨ ∃ fault, f = .file fault := by
  obtain ⟨htexts, -⟩ := (List.forall₂_and_left _ _).mp <|
    (Staging.forall₂_loadedFrom h.loaded h.resolved).imp fun source _ hinput =>
      ⟨Staging.hasText_of_loadedFrom hinput, hinput⟩
  exact Staging.isChecker_or_file_of_enter h.root
    (isCanonical_of_resolveAll h.canonical h.resolved) htexts henter

/-- **A run fails with problems of the checker's kind only**, unless it is stopped before it comes
to a call. -/
theorem failsAsChecker_iff (h : c.Given w inputs sources directory config)
    (houtputs : ∀ call status output errors, execute call = .exited status output errors →
      Listing.WithoutNull output.toList) :
    FailsAsChecker (c.collect w execute (inputs.map Path.ofString)).collected.result ↔
      inputs = [] ∨ ¬ c.Stops w (directory.getD w.directory) config sources := by
  by_cases hinputs : inputs = []
  · subst hinputs
    exact iff_of_true (failsAsChecker_ok []) (.inl rfl)
  rw [h.result_collect hinputs, or_iff_right hinputs]
  rcases henter : Staging.enter w.tree sources with ⟨s, _ | f⟩
  · rw [h.failsAsChecker_of_staged henter houtputs, stops_iff_of_staged henter]
  · rw [result_callOn_of_failure henter, failsAsChecker_error_iff, stops_iff_of_failure henter]
    constructor
    · rintro hchecker ⟨fault, rfl⟩
      exact absurd hchecker (Failure.not_isChecker fun _ hp => nomatch hp)
    · exact (h.isChecker_or_file henter).resolve_right

end

end Compiler

end ExpectedDiagnostics
