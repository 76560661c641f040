import ExpectedDiagnostics.Proofs.Check.Files
import ExpectedDiagnostics.Proofs.Resolved

/-!
# The exit status of a check

A check that does not fail ends with the status 0 or 1. It is 0 exactly if every file is in order
(`InOrder`), which is a matter of its comment groups and of the diagnostics about it, and says
nothing of how a check goes about it. A diagnostic whose file is no path ends the check before its
first file. None of the checkers that the command line offers gives such a diagnostic, but a checker
is any function.

Main results:

* `checkFile_inOrder_iff` — one file: it is not given up and has no problem exactly if it is in
  order.
* `exitStatus_of_allResolve` — a whole check of diagnostics whose files can be resolved.
* `perform_exitStatus` — any check: when it fails, and when its status is 0.
-/

namespace ExpectedDiagnostics

/-- What a check asks of the comment groups of a file and the diagnostics about it. -/
structure CommentGroup.InOrder (unexpected : Bool) (ds : List Diagnostic)
    (groups : List CommentGroup) : Prop where
  /-- No annotation is blank. -/
  not_blank : ∀ g ∈ groups, ¬ g.IsBlank
  /-- No annotation is on the line of another one. -/
  lines_differ : (groups.filter isMarked).Pairwise fun g h => g.line ≠ h.line
  /-- The line of an annotation has one diagnostic, and the annotation expects this one. -/
  accepts : ∀ g ∈ groups.filter isMarked,
    ∃ e, g.Expects e ∧ Outcome.AcceptsOnly e (ds.filter (·.line == g.line))
  /-- Where unexpected diagnostics are problems, each diagnostic is on the line of an annotation. -/
  expected : unexpected = true → ∀ d ∈ ds, ∃ g ∈ groups.filter isMarked, g.line = d.line

namespace Run

variable {unexpected : Bool} {source : Source} {ds : List Diagnostic} {groups : List CommentGroup}

/-! ## One file -/

/-- What annotations on these lines leave of diagnostics is nothing exactly if each diagnostic is on
one of the lines. -/
theorem claimAll_leaves_nothing_iff (as : List LineExpectation) :
    (∀ line, (Outcome.claimAll (.ofList ds) as).2.on line = []) ↔
      ∀ d ∈ ds, d.line ∈ as.map (·.line) := by
  constructor
  · intro hnone d hd
    by_contra hline
    -- a line that no annotation is on still has its diagnostics
    have hempty := hnone d.line
    rw [Outcome.on_claimAll, if_neg hline, LineIndex.on_ofList, List.filter_eq_nil_iff] at hempty
    exact hempty d hd (beq_self_eq_true _)
  · intro hall line
    rw [Outcome.on_claimAll, LineIndex.on_ofList]
    split
    · rfl
    · rename_i hline
      rw [List.filter_eq_nil_iff]
      intro d hd hdline
      exact hline (beq_iff_eq.mp hdline ▸ hall d hd)

/-- If all groups can be read, the counts of a file show no problem exactly if it is in order. -/
theorem passed_claims_iff (hread : (CommentGroup.readAll groups).2 = none) :
    (countsOf (claims (.ofList ds) groups).1 (claims (.ofList ds) groups).2).passed unexpected
        = true ↔ CommentGroup.InOrder unexpected ds groups := by
  have hlines := CommentGroup.map_line_readAll hread
  have hkinds := CommentGroup.readAll_eq_none_iff.mp hread
  have haccepts := CommentGroup.forall_readAll_iff
    (P := fun line e => Outcome.AcceptsOnly e (ds.filter (·.line == line))) hread
  unfold claims
  -- say it by the lines of the annotations, which are those of the marked groups
  rw [passed_countsOf_iff, Outcome.all_ok_claimAll_iff, claimAll_leaves_nothing_iff, hlines,
    ← List.pairwise_map (f := LineExpectation.line) (R := (· ≠ ·)), hlines, List.pairwise_map]
  simp only [LineIndex.on_ofList]
  constructor
  · rintro ⟨⟨hdistinct, hall⟩, hleft⟩
    refine ⟨fun g hg => (hkinds g hg).1, hdistinct, haccepts.mp hall, ?_⟩
    intro hun d hd
    obtain ⟨g, hg, hline⟩ := List.mem_map.mp (hleft hun d hd)
    exact ⟨g, hg, hline⟩
  · intro horder
    refine ⟨⟨horder.lines_differ, haccepts.mpr horder.accepts⟩, ?_⟩
    intro hun d hd
    obtain ⟨g, hg, hline⟩ := horder.expected hun d hd
    exact List.mem_map.mpr ⟨g, hg, hline⟩

/-- A file whose comments and markers agree is not given up and has no problem exactly if it is in
order. -/
theorem checkFile_inOrder_iff (hgood : ¬ Disagrees source groups) :
    let run := ((start unexpected).checkFile source (.ofList ds) groups).1
    (run.aborted = [] ∧ run.totals.passed unexpected = true) ↔
      CommentGroup.InOrder unexpected ds groups := by
  rcases end_cases source groups with
    ⟨hread, hcount⟩ | ⟨hread, hcount⟩ | ⟨p, hread, hp⟩ | ⟨p, hread, hp⟩
  · rw [checkFile_finished hread hcount, ← passed_claims_iff hread]
    exact and_iff_right rfl
  -- in the two ends that fail the check, comments and markers disagree
  · rw [length_readAll hread] at hcount
    exact absurd (.inr ⟨CommentGroup.readAll_eq_none_iff.mp hread, hcount.symm⟩) hgood
  -- a file that is given up has a blank annotation, which is not in order
  · rw [checkFile_blank hread hp]
    obtain ⟨b, hb, hblank⟩ := CommentGroup.exists_blank_of_readAll hread hp
    refine iff_of_false ?_ fun horder => horder.not_blank b hb hblank
    rintro ⟨haborted, -⟩
    exact absurd haborted (List.cons_ne_nil _ _)
  · exact absurd (.inl (CommentGroup.readAll_malformed_iff.mp ⟨p, hread, hp⟩)) hgood

end Run

namespace Check

/-! ## A whole check -/

variable {w : Workspace} {collect : List Path → Collected} {paths : List Path}
  {sources : List Source} {ds : List Diagnostic}

/-- Files alone have no problem in sum, and none of them is given up, exactly if each of them is in
order. None of their counts is negative, so no problem of one is made up for by another one. -/
theorem passed_alone_iff {directory : Location} {unexpected : Bool}
    {files : List (Source × List CommentGroup)}
    (hgood : ∀ file ∈ files, ¬ Run.Disagrees file.1 file.2) :
    ((files.map fun f => (alone directory unexpected ds f).1.totals).sum.passed unexpected = true ∧
        files.flatMap (fun f => (alone directory unexpected ds f).1.aborted) = []) ↔
      ∀ file ∈ files, CommentGroup.InOrder unexpected
        (Diagnostic.about directory (placeOf directory file) ds) file.2 := by
  have hnonneg : ∀ c ∈ files.map fun f => (alone directory unexpected ds f).1.totals,
      c.Nonnegative := by
    intro c hc
    obtain ⟨file, hfile, rfl⟩ := List.mem_map.mp hc
    obtain ⟨s?, hs⟩ := alone_ok_of_not_disagrees (hgood file hfile)
    exact (Run.closed_of_checkFile_ok hs).2.2.2
  rw [Counts.passed_sum_iff hnonneg, List.forall_mem_map, List.flatMap_eq_nil_iff]
  constructor
  · rintro ⟨htotal, hnone⟩ file hfile
    exact (Run.checkFile_inOrder_iff (hgood file hfile)).mp ⟨hnone file hfile, htotal file hfile⟩
  · intro hall
    have hboth := fun file hfile =>
      (Run.checkFile_inOrder_iff (hgood file hfile)).mpr (hall file hfile)
    exact ⟨fun file hfile => (hboth file hfile).2, fun file hfile => (hboth file hfile).1⟩

/-- A check of diagnostics whose files can be resolved fails with an internal problem exactly if the
comments and the markers of some file disagree. Otherwise its status is 0 or 1, and it is 0 exactly
if every file is in order with the diagnostics about it. -/
theorem exitStatus_of_allResolve (unexpected : Bool)
    (walk : String → Dialect → List CommentGroup) (hload : load w paths = .ok sources)
    (hplaces : (sources.map fun s => s.path.place w.directory).Nodup)
    (hcollect : (collect (sources.map (·.path))).result = .ok ds)
    (hds : Diagnostic.AllResolve w.directory ds) :
    let result := (perform w (withGroups walk) collect unexpected paths).result
    (Internal result ↔ ∃ s ∈ sources, Run.Disagrees s (walk s.text s.dialect)) ∧
      (¬ Internal result → ∃ summary, result = .ok summary ∧
        (summary.exitStatus = 0 ∨ summary.exitStatus = 1) ∧
        (summary.exitStatus = 0 ↔ ∀ s ∈ sources, CommentGroup.InOrder unexpected
          (Diagnostic.about w.directory (s.path.place w.directory) ds)
          (walk s.text s.dialect))) := by
  dsimp only
  have hnodup : ((withGroups walk sources).map (placeOf w.directory)).Nodup := by
    rwa [map_placeOf_withGroups]
  have hinternal : Internal (perform w (withGroups walk) collect unexpected paths).result ↔
      ∃ s ∈ sources, Run.Disagrees s (walk s.text s.dialect) := by
    rw [perform_internal_iff hload hnodup hcollect hds]
    simp [withGroups]
  refine ⟨hinternal, ?_⟩
  intro hnot
  have hgood : ∀ file ∈ withGroups walk sources, ¬ Run.Disagrees file.1 file.2 := by
    intro file hfile hbad
    obtain ⟨s, hs, rfl⟩ := List.mem_map.mp hfile
    exact hnot (hinternal.mpr ⟨s, hs, hbad⟩)
  obtain ⟨summary, hresult, htotals, -, haborted, hpassed, -⟩ :=
    perform_ok unexpected hload hnodup hcollect hds hgood
  refine ⟨summary, hresult, summary.exitStatus_cases, ?_⟩
  rw [RunSummary.exitStatus_eq_zero_iff, hpassed, Bool.and_eq_true, htotals, haborted,
    List.isEmpty_iff, passed_alone_iff hgood]
  -- what is said of a file with its comment groups is said of the file
  unfold withGroups
  exact List.forall_mem_map

/-- **The exit status is right.** If the files of all diagnostics can be resolved, as they always
can with the checkers of the command line, a check fails with an internal problem exactly if the
comments and the markers of some file disagree. Otherwise its status is 0 or 1, and it is 0 exactly
if every file is in order with the diagnostics about it. With a diagnostic whose file cannot be
resolved, the check fails for this reason alone, whatever its files are. -/
theorem perform_exitStatus (unexpected : Bool) (walk : String → Dialect → List CommentGroup)
    (hload : load w paths = .ok sources)
    (hplaces : (sources.map fun s => s.path.place w.directory).Nodup)
    (hcollect : (collect (sources.map (·.path))).result = .ok ds) :
    let result := (perform w (withGroups walk) collect unexpected paths).result
    (Diagnostic.AllResolve w.directory ds →
      (Internal result ↔ ∃ s ∈ sources, Run.Disagrees s (walk s.text s.dialect)) ∧
        (¬ Internal result → ∃ summary, result = .ok summary ∧
          (summary.exitStatus = 0 ∨ summary.exitStatus = 1) ∧
          (summary.exitStatus = 0 ↔ ∀ s ∈ sources, CommentGroup.InOrder unexpected
            (Diagnostic.about w.directory (s.path.place w.directory) ds)
            (walk s.text s.dialect)))) ∧
      (¬ Diagnostic.AllResolve w.directory ds → result = .error (.unresolved .nullCharacter)) ∧
      (∀ execute settings arguments,
        CommandLine.collector w execute settings arguments = .ok collect →
          Diagnostic.AllResolve w.directory ds) := by
  refine ⟨fun hds => ?_, fun hds => ?_, fun execute settings arguments hcollector => ?_⟩
  · exact exitStatus_of_allResolve unexpected walk hload hplaces hcollect hds
  · exact perform_of_not_allResolve unexpected (withGroups walk) hload hcollect hds
  · exact CommandLine.collector_resolves hcollector hcollect w.directory

/-- The status of the check of two files is 0, and so both are in order. -/
theorem checkPair_exitStatus :
    ∃ summary, (checkPair [pairDiagnostic] (pairSources.map (·.path))).result = .ok summary ∧
      summary.exitStatus = 0 ∧ ∀ s ∈ pairSources, CommentGroup.InOrder true
        (Diagnostic.about .root (s.path.place .root) [pairDiagnostic]) [⟨0, [s.text]⟩] := by
  obtain ⟨-, h⟩ := (perform_exitStatus true (fun text _ => [⟨0, [text]⟩]) load_pair (by decide)
    (result_given _ _)).1 resolves_pairDiagnostic
  obtain ⟨summary, hs, -, hstatus⟩ := h (by
    rintro ⟨p, hp, -⟩
    exact absurd (result_checkPair.symm.trans hp) (by simp))
  have hzero : summary.exitStatus = 0 := by
    rw [← Except.ok.inj (result_checkPair.symm.trans hs)]
    rfl
  exact ⟨summary, hs, hzero, hstatus.mp hzero⟩

/-- With one more diagnostic, on a file that is no path and so about neither of them, the check of
the two files has no status, though it does not fail with an internal problem. -/
theorem checkPair_no_exitStatus :
    load pairWorkspace (pairSources.map (·.path)) = .ok pairSources ∧
      (pairSources.map fun s => s.path.place .root).Nodup ∧
      (given [pairDiagnostic, nullDiagnostic] (pairSources.map (·.path))).result =
        .ok [pairDiagnostic, nullDiagnostic] ∧
      ¬ Internal (checkPair [pairDiagnostic, nullDiagnostic] (pairSources.map (·.path))).result ∧
      ∀ summary, (checkPair [pairDiagnostic, nullDiagnostic] (pairSources.map (·.path))).result ≠
        .ok summary := by
  have hresult : (checkPair [pairDiagnostic, nullDiagnostic] (pairSources.map (·.path))).result =
      .error (.unresolved .nullCharacter) := rfl
  refine ⟨load_pair, by decide, rfl, ?_, ?_⟩
  · rintro ⟨p, hp, -⟩
    exact nomatch hresult.symm.trans hp
  · intro summary hok
    exact nomatch hresult.symm.trans hok

end Check

end ExpectedDiagnostics
