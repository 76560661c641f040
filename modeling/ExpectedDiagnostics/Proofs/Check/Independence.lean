import ExpectedDiagnostics.Proofs.Check.Files

/-!
# Files do not influence each other

What a check tells of a file is what the check of that file alone tells, with an index of the
diagnostics about it only. So it makes no difference in which order the files are checked, nor what
diagnostics there are about other files or about none, nor how the diagnostics of different lines
are mixed: each such change (`Rearranged`) leaves the diagnostics about a file as they are, line by
line (`SameAbout`).

Main results:

* `sameAbout_of_rearranged` — what such changes come to.
* `checkFile_congr` — the check of a file depends on what is on the lines of its index.
* `independent_of_sameAbout` — two checks of the same files in any order side by side.
* `perform_independent` — the same, after any such changes of the diagnostics.
-/

namespace ExpectedDiagnostics

/-- Tells whether an event ends the check of a file. -/
def Event.endsFile : Event → Bool
  | .finished _ => true
  | .aborted .. => true
  | _ => false

/-- The diagnostics about each of these places are the same, line by line and in the same order.
This leaves open how those of different lines or places are mixed, and which other ones there
are. -/
def Diagnostic.SameAbout (directory : Location) (places : List Location)
    (ds ds' : List Diagnostic) : Prop :=
  ∀ place ∈ places, ∀ line, (about directory place ds).filter (·.line == line) =
    (about directory place ds').filter (·.line == line)

/-- The changes of diagnostics that make no difference to the files at these places: to reorder them
so that those of the same line of the same file stay in order, and to add or remove one that has no
file or is about none of these files. -/
inductive Diagnostic.Rearranged (directory : Location) (places : List Location) :
    List Diagnostic → List Diagnostic → Prop
  | reordered {ds ds' : List Diagnostic} (hperm : ds.Perm ds')
      (horder : ∀ place line,
        ds.filter (fun d => d.place? directory == some place && d.line == line) =
          ds'.filter fun d => d.place? directory == some place && d.line == line) :
      Rearranged directory places ds ds'
  | added {d : Diagnostic} (before after : List Diagnostic)
      (helsewhere : ∀ place ∈ places, d.place? directory ≠ some place) :
      Rearranged directory places (before ++ after) (before ++ d :: after)
  | removed {d : Diagnostic} (before after : List Diagnostic)
      (helsewhere : ∀ place ∈ places, d.place? directory ≠ some place) :
      Rearranged directory places (before ++ d :: after) (before ++ after)
  | trans {ds ds' ds'' : List Diagnostic} (first : Rearranged directory places ds ds')
      (second : Rearranged directory places ds' ds'') : Rearranged directory places ds ds''

/-- A reordering that keeps the order of the diagnostics of each line of each file keeps the
diagnostics about every place. -/
theorem Diagnostic.sameAbout_of_reordered {directory : Location} {ds ds' : List Diagnostic}
    (h : ∀ place line, ds.filter (fun d => d.place? directory == some place && d.line == line) =
      ds'.filter fun d => d.place? directory == some place && d.line == line)
    (places : List Location) : SameAbout directory places ds ds' := by
  intro place _ line
  unfold about
  rw [List.filter_filter, List.filter_filter]
  have hline := h place line
  simpa only [Bool.and_comm] using hline

/-- A diagnostic without a file, or about a file elsewhere, makes no difference. -/
theorem Diagnostic.sameAbout_insert {directory : Location} {places : List Location}
    {d : Diagnostic} (h : ∀ place ∈ places, d.place? directory ≠ some place)
    (before after : List Diagnostic) :
    SameAbout directory places (before ++ d :: after) (before ++ after) := by
  intro place hplace line
  unfold about
  have hd : (d.place? directory == some place) = false := by
    simpa using h place hplace
  rw [List.filter_append, List.filter_cons, hd]
  simp

/-- Such changes keep the diagnostics about each of the places, line by line. -/
theorem Diagnostic.sameAbout_of_rearranged {directory : Location} {places : List Location}
    {ds ds' : List Diagnostic} (h : Rearranged directory places ds ds') :
    SameAbout directory places ds ds' := by
  induction h with
  | reordered _ horder => exact sameAbout_of_reordered horder places
  | added before after helsewhere =>
    intro place hplace line
    exact (sameAbout_insert helsewhere before after place hplace line).symm
  | removed before after helsewhere => exact sameAbout_insert helsewhere before after
  | trans _ _ ih ih' =>
    intro place hplace line
    exact (ih place hplace line).trans (ih' place hplace line)

namespace Run

variable {unexpected : Bool} {source : Source} {ix other : LineIndex}
  {groups : List CommentGroup}

theorem countsOf_congr (os : List Outcome) (h : LineIndex.SameOnLines ix other) :
    countsOf os ix = countsOf os other := by
  unfold countsOf
  rw [h.leftoverCount_eq]

theorem summaryOf_congr (os : List Outcome) (h : LineIndex.SameOnLines ix other) :
    summaryOf unexpected source os ix = summaryOf unexpected source os other := by
  unfold summaryOf
  rw [countsOf_congr os h, h.leftovers_eq]

/-- The check of a file depends on what is on the lines of its index only. -/
theorem checkFile_congr (h : LineIndex.SameOnLines ix other) :
    ((start unexpected).checkFile source ix groups).1 =
        ((start unexpected).checkFile source other groups).1 ∧
      ((start unexpected).checkFile source ix groups).2.2 =
        ((start unexpected).checkFile source other groups).2.2 := by
  -- the outcomes are the same, and so is what they leave on every line; which end is reached is up
  -- to the comments only
  obtain ⟨hos, hrest⟩ := Outcome.claimAll_congr h (CommentGroup.readAll groups).1
  have hclaims : (claims ix groups).1 = (claims other groups).1 := hos
  have hleft : LineIndex.SameOnLines (claims ix groups).2 (claims other groups).2 := hrest
  rcases end_cases source groups with
    ⟨hread, hcount⟩ | ⟨hread, hcount⟩ | ⟨p, hread, hp⟩ | ⟨p, hread, hp⟩
  · rw [checkFile_finished hread hcount, checkFile_finished hread hcount]
    dsimp only
    rw [hclaims, countsOf_congr _ hleft, summaryOf_congr _ hleft]
    exact ⟨rfl, rfl⟩
  · rw [checkFile_mismatch hread hcount, checkFile_mismatch hread hcount]
    dsimp only
    rw [hclaims, countsOf_congr _ hleft]
    exact ⟨rfl, rfl⟩
  · rw [checkFile_blank hread hp, checkFile_blank hread hp]
    dsimp only
    rw [hclaims]
    exact ⟨rfl, rfl⟩
  · rw [checkFile_malformed hread hp, checkFile_malformed hread hp]
    dsimp only
    rw [hclaims]
    exact ⟨rfl, rfl⟩

end Run

namespace Check

/-- The check of a file came to what this event tells: a summary, or the problem that it was given
up for. -/
def EndsWith (checked : Run × LineIndex × Except Failure (Option FileSummary)) : Event → Prop
  | .finished summary => checked.2.2 = .ok (some summary)
  | .aborted path problem => checked.2.2 = .ok none ∧ .aborted path problem ∈ checked.1.events
  | _ => False

variable {directory : Location} {unexpected : Bool} {ds ds' : List Diagnostic}

/-- The outcomes told before the end do not end a file. -/
private theorem filter_endsFile_checking (source : Source) (os : List Outcome) :
    (Run.checking unexpected source os).events.filter Event.endsFile = [] := by
  unfold Run.checking
  rw [List.filter_eq_nil_iff]
  intro e he
  rcases List.mem_cons.mp he with rfl | hmem
  · exact Bool.false_ne_true
  · obtain ⟨o, -, rfl⟩ := List.mem_map.mp hmem
    exact Bool.false_ne_true

/-- The check of a file that does not fail tells one end of it: what it came to. -/
theorem exists_endsFile {file : Source × List CommentGroup} {s? : Option FileSummary}
    (h : (alone directory unexpected ds file).2.2 = .ok s?) :
    ∃ e, (alone directory unexpected ds file).1.events.filter Event.endsFile = [e] ∧
      EndsWith (alone directory unexpected ds file) e := by
  obtain ⟨source, groups⟩ := file
  unfold alone at h ⊢
  dsimp only at h ⊢
  rcases Run.checkFile_ok_cases h with ⟨hread, hcount, -⟩ | ⟨p, hread, hp, -⟩
  · rw [Run.checkFile_finished hread hcount]
    refine ⟨.finished (Run.summaryOf unexpected source (Run.claims _ groups).1
      (Run.claims _ groups).2), ?_, rfl⟩
    unfold Run.tell
    dsimp only
    rw [List.filter_append, filter_endsFile_checking]
    rfl
  · rw [Run.checkFile_blank hread hp]
    refine ⟨.aborted source.path.toString p, ?_, rfl, ?_⟩
    · unfold Run.tell Run.note
      dsimp only
      rw [List.filter_append, filter_endsFile_checking]
      rfl
    · unfold Run.tell
      exact List.mem_append_right _ List.mem_cons_self

/-- The ends that the checks of several files tell one after the other are theirs, one by one. -/
theorem forall₂_endsWith {files : List (Source × List CommentGroup)}
    (h : ∀ file ∈ files, ∃ s?, (alone directory unexpected ds file).2.2 = .ok s?) :
    List.Forall₂ (fun file e => EndsWith (alone directory unexpected ds file) e) files
      ((files.flatMap fun f => (alone directory unexpected ds f).1.events).filter
        Event.endsFile) := by
  induction files with
  | nil => exact .nil
  | cons file files ih =>
    -- the events of the first file have one end among them, and the others follow
    obtain ⟨s?, hs⟩ := h file List.mem_cons_self
    obtain ⟨e, he, hends⟩ := exists_endsFile hs
    rw [List.flatMap_cons, List.filter_append, he, List.singleton_append]
    exact .cons hends (ih fun f hf => h f (List.mem_cons_of_mem _ hf))

/-- The last event ends the check, and not a file. -/
theorem filter_endsFile_concat_done (events : List Event) (summary : RunSummary) :
    (events ++ [Event.done summary]).filter Event.endsFile = events.filter Event.endsFile := by
  rw [List.filter_append]
  exact List.append_nil _

/-- A file alone comes to the same with diagnostics that are the same about it. -/
theorem alone_congr {places : List Location} {file : Source × List CommentGroup}
    (h : Diagnostic.SameAbout directory places ds ds')
    (hplace : placeOf directory file ∈ places) :
    (alone directory unexpected ds file).1 = (alone directory unexpected ds' file).1 ∧
      (alone directory unexpected ds file).2.2 = (alone directory unexpected ds' file).2.2 := by
  apply Run.checkFile_congr
  intro line
  rw [LineIndex.on_ofList, LineIndex.on_ofList]
  exact h _ hplace line

section

variable {w : Workspace} {collect collect' : List Path → Collected} {paths paths' : List Path}
  {sources sources' : List Source}

/-- Two checks of the same different files, in any order, with diagnostics that can be resolved and
are the same about each of the files: either both fail with an internal problem, or none does. Then
what each file has come to is what it comes to alone, with the diagnostics about it only, and both
checks have the same totals, number of files and exit status, and tell the same ends of files,
summaries and files given up, in some order. -/
theorem independent_of_sameAbout (unexpected : Bool) (walk : String → Dialect → List CommentGroup)
    (hload : load w paths = .ok sources) (hload' : load w paths' = .ok sources')
    (hplaces : (sources.map fun s => s.path.place w.directory).Nodup)
    (hcollect : (collect (sources.map (·.path))).result = .ok ds)
    (hcollect' : (collect' (sources'.map (·.path))).result = .ok ds')
    (hds : Diagnostic.AllResolve w.directory ds) (hds' : Diagnostic.AllResolve w.directory ds')
    (hsources : sources.Perm sources')
    (hsame : Diagnostic.SameAbout w.directory (sources.map fun s => s.path.place w.directory)
      ds ds') :
    let checked := perform w (withGroups walk) collect unexpected paths
    let checked' := perform w (withGroups walk) collect' unexpected paths'
    (Internal checked.result ↔ Internal checked'.result) ∧
      (¬ Internal checked.result → ∃ summary summary',
        checked.result = .ok summary ∧ checked'.result = .ok summary' ∧
        List.Forall₂ (fun file e => EndsWith (alone w.directory unexpected ds file) e)
          (withGroups walk sources) (checked.run.events.filter Event.endsFile) ∧
        summary.totals = summary'.totals ∧ summary.fileCount = summary'.fileCount ∧
        summary.exitStatus = summary'.exitStatus ∧ summary.aborted.Perm summary'.aborted ∧
        (checked.run.events.filter Event.endsFile).Perm
          (checked'.run.events.filter Event.endsFile)) := by
  dsimp only
  have hfiles : (withGroups walk sources).Perm (withGroups walk sources') := hsources.map _
  have hnodup : ((withGroups walk sources).map (placeOf w.directory)).Nodup := by
    rwa [map_placeOf_withGroups]
  have hnodup' : ((withGroups walk sources').map (placeOf w.directory)).Nodup :=
    (hfiles.map _).nodup_iff.mp hnodup
  -- both checks come to the same for each file, because the diagnostics about it are the same
  have hcongr : ∀ file ∈ withGroups walk sources,
      (alone w.directory unexpected ds file).1 = (alone w.directory unexpected ds' file).1 := by
    intro file hfile
    refine (alone_congr hsame ?_).1
    rw [← map_placeOf_withGroups w.directory walk]
    exact List.mem_map_of_mem hfile
  have hinternal : Internal (perform w (withGroups walk) collect unexpected paths).result ↔
      ∃ file ∈ withGroups walk sources, Run.Disagrees file.1 file.2 :=
    perform_internal_iff hload hnodup hcollect hds
  refine ⟨?_, ?_⟩
  · rw [hinternal, perform_internal_iff hload' hnodup' hcollect' hds']
    exact exists_congr fun file => and_congr_left fun _ => hfiles.mem_iff
  · intro hnot
    have hgood : ∀ file ∈ withGroups walk sources, ¬ Run.Disagrees file.1 file.2 := by
      intro file hfile hbad
      exact hnot (hinternal.mpr ⟨file, hfile, hbad⟩)
    have hgood' : ∀ file ∈ withGroups walk sources', ¬ Run.Disagrees file.1 file.2 :=
      fun file hfile => hgood file (hfiles.mem_iff.mpr hfile)
    obtain ⟨summary, hresult, htotals, hcount, haborted, hpassed, hevents⟩ :=
      perform_ok unexpected hload hnodup hcollect hds hgood
    obtain ⟨summary', hresult', htotals', hcount', haborted', hpassed', hevents'⟩ :=
      perform_ok unexpected hload' hnodup' hcollect' hds' hgood'
    -- what each file comes to alone is the same on both sides, so the sums are those of the same
    -- values in another order
    have hsums : summary.totals = summary'.totals := by
      rw [htotals, htotals', List.map_congr_left fun f hf => congrArg Run.totals (hcongr f hf)]
      exact (hfiles.map _).sum_eq
    have hgiven : summary.aborted.Perm summary'.aborted := by
      rw [haborted, haborted', List.flatMap_congr fun f hf => congrArg Run.aborted (hcongr f hf)]
      exact hfiles.flatMap_right _
    refine ⟨summary, summary', hresult, hresult', ?_, hsums, ?_, ?_, hgiven, ?_⟩
    · rw [hevents, filter_endsFile_concat_done]
      exact forall₂_endsWith fun f hf => alone_ok_of_not_disagrees (hgood f hf)
    · rw [hcount, hcount', hfiles.length_eq]
    · unfold RunSummary.exitStatus
      rw [hpassed, hpassed', hsums, hgiven.isEmpty_eq]
    · rw [hevents, hevents', filter_endsFile_concat_done, filter_endsFile_concat_done,
        List.flatMap_congr fun f hf => congrArg Run.events (hcongr f hf)]
      exact (hfiles.flatMap_right _).filter _

/-- **Files do not influence each other.** Two checks of the same different files, in any order,
with diagnostics that are rearranged in ways that make no difference to the files. If the files of
all diagnostics can be resolved, either both checks fail with an internal problem, or none does.
Then what each file has come to is what it comes to alone, with the diagnostics about it only, and
both checks have the same totals, number of files and exit status, and tell the same ends of files,
summaries and files given up, in some order. A check with a diagnostic whose file cannot be resolved
fails for this reason alone. -/
theorem perform_independent (unexpected : Bool) (walk : String → Dialect → List CommentGroup)
    (hload : load w paths = .ok sources) (hload' : load w paths' = .ok sources')
    (hplaces : (sources.map fun s => s.path.place w.directory).Nodup)
    (hcollect : (collect (sources.map (·.path))).result = .ok ds)
    (hcollect' : (collect' (sources'.map (·.path))).result = .ok ds')
    (hsources : sources.Perm sources')
    (hrearranged : Diagnostic.Rearranged w.directory
      (sources.map fun s => s.path.place w.directory) ds ds') :
    let checked := perform w (withGroups walk) collect unexpected paths
    let checked' := perform w (withGroups walk) collect' unexpected paths'
    (Diagnostic.AllResolve w.directory ds → Diagnostic.AllResolve w.directory ds' →
      (Internal checked.result ↔ Internal checked'.result) ∧
        (¬ Internal checked.result → ∃ summary summary',
          checked.result = .ok summary ∧ checked'.result = .ok summary' ∧
          List.Forall₂ (fun file e => EndsWith (alone w.directory unexpected ds file) e)
            (withGroups walk sources) (checked.run.events.filter Event.endsFile) ∧
          summary.totals = summary'.totals ∧ summary.fileCount = summary'.fileCount ∧
          summary.exitStatus = summary'.exitStatus ∧ summary.aborted.Perm summary'.aborted ∧
          (checked.run.events.filter Event.endsFile).Perm
            (checked'.run.events.filter Event.endsFile))) ∧
      (¬ Diagnostic.AllResolve w.directory ds →
        checked.result = .error (.unresolved .nullCharacter)) ∧
      (¬ Diagnostic.AllResolve w.directory ds' →
        checked'.result = .error (.unresolved .nullCharacter)) := by
  refine ⟨fun hds hds' => ?_, fun hds => ?_, fun hds' => ?_⟩
  · exact independent_of_sameAbout unexpected walk hload hload' hplaces hcollect hcollect' hds hds'
      hsources (Diagnostic.sameAbout_of_rearranged hrearranged)
  · exact perform_of_not_allResolve unexpected (withGroups walk) hload hcollect hds
  · exact perform_of_not_allResolve unexpected (withGroups walk) hload' hcollect' hds'

end

/-! ## Two files, in either order -/

/-- A diagnostic about no file. -/
def filelessDiagnostic : Diagnostic := ⟨none, 0, .text "m", 2, 0, "error"⟩

/-- A diagnostic on another line of the file with an annotation. -/
def laterDiagnostic : Diagnostic := ⟨some "a.ts", 4, .text "n", 3, 0, "error"⟩

theorem resolves_rearranged :
    Diagnostic.AllResolve .root [laterDiagnostic, filelessDiagnostic, pairDiagnostic] := by
  intro d hd file hfile
  simp only [List.mem_cons, List.not_mem_nil, or_false] at hd
  rcases hd with rfl | rfl | rfl
  · exact ⟨⟨["a.ts"]⟩, by rw [← Option.some.inj hfile]; rfl⟩
  · exact nomatch hfile
  · exact ⟨⟨["a.ts"]⟩, by rw [← Option.some.inj hfile]; rfl⟩

/-- The diagnostics of two lines change places, and one that is about no file is put between
them. -/
theorem rearranged_pair (places : List Location) :
    Diagnostic.Rearranged .root places [pairDiagnostic, laterDiagnostic]
      [laterDiagnostic, filelessDiagnostic, pairDiagnostic] := by
  refine .trans (.reordered (.swap laterDiagnostic pairDiagnostic []) ?_)
    (.added [laterDiagnostic] [pairDiagnostic] ?_)
  · -- no line has both of them, so each piece has at most one member
    intro place line
    have hlines : pairDiagnostic.line = line → laterDiagnostic.line ≠ line := by
      rintro rfl
      decide
    by_cases hpair : pairDiagnostic.line = line
    · simp [List.filter_cons, hlines hpair]
    · simp [List.filter_cons, hpair]
  · intro place _ hplace
    exact nomatch hplace

/-- The two files in either order, with the diagnostics rearranged: both checks find the one
annotation met and one line left over. -/
theorem checkPair_independent :
    ∃ summary summary',
      (checkPair [pairDiagnostic, laterDiagnostic] (pairSources.map (·.path))).result =
        .ok summary ∧
      (checkPair [laterDiagnostic, filelessDiagnostic, pairDiagnostic]
        (pairSources.reverse.map (·.path))).result = .ok summary' ∧
      summary.totals = summary'.totals ∧ summary.totals = ⟨1, 0, 1⟩ := by
  have hload' : load pairWorkspace (pairSources.reverse.map (·.path)) = .ok pairSources.reverse :=
    rfl
  have hresult : (checkPair [pairDiagnostic, laterDiagnostic] (pairSources.map (·.path))).result =
      .ok ⟨⟨1, 0, 1⟩, 2, [], false⟩ := rfl
  have hds : Diagnostic.AllResolve .root [pairDiagnostic, laterDiagnostic] := by
    intro d hd
    exact resolves_rearranged d (by simp at hd ⊢; tauto)
  obtain ⟨-, h⟩ := (perform_independent true (fun text _ => [⟨0, [text]⟩]) load_pair hload'
    (by decide) (result_given _ _) (result_given _ _) (List.reverse_perm _).symm
    (rearranged_pair _)).1 hds resolves_rearranged
  obtain ⟨summary, summary', hs, hs', -, htotals, -⟩ := h (by
    rintro ⟨p, hp, -⟩
    exact nomatch hresult.symm.trans hp)
  refine ⟨summary, summary', hs, hs', htotals, ?_⟩
  rw [← Except.ok.inj (hresult.symm.trans hs)]

/-- Adding a diagnostic whose file is no path, and so not one of the two, makes a check fail that
has the status 0 without it, and not with an internal problem. -/
theorem checkPair_not_independent :
    Diagnostic.Rearranged .root (pairSources.map fun s => s.path.place .root) [pairDiagnostic]
        [pairDiagnostic, nullDiagnostic] ∧
      (∃ summary, (checkPair [pairDiagnostic] (pairSources.map (·.path))).result = .ok summary ∧
        summary.exitStatus = 0) ∧
      ¬ Internal (checkPair [pairDiagnostic, nullDiagnostic] (pairSources.map (·.path))).result ∧
      ∀ summary, (checkPair [pairDiagnostic, nullDiagnostic] (pairSources.map (·.path))).result ≠
        .ok summary := by
  have hresult : (checkPair [pairDiagnostic, nullDiagnostic] (pairSources.map (·.path))).result =
      .error (.unresolved .nullCharacter) := rfl
  refine ⟨.added [pairDiagnostic] [] (by decide), ⟨_, result_checkPair, rfl⟩, ?_, ?_⟩
  · rintro ⟨p, hp, -⟩
    exact nomatch hresult.symm.trans hp
  · intro summary hok
    exact nomatch hresult.symm.trans hok

end Check

end ExpectedDiagnostics
