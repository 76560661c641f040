import ExpectedDiagnostics.Proofs.Check.InTurn
import ExpectedDiagnostics.Proofs.Run.Blocks

/-!
# What the report of a check is told

A check tells its report one block for each file, in the order in which the files are given, and at
last that it is done. If the comments and the markers of a file disagree, the report stops within
the block of this file. A check that does not come to its first file tells nothing.

Main results:

* `visit_events` — one file: a whole block, or one that lacks its end.
* `checkAll_events` — all files, whatever the index holds for them.
* `reports_in_blocks` — the report of any sequence of operations, and that of a whole check.
-/

namespace ExpectedDiagnostics

/-- A block is about a file with these comment groups: it has one outcome for each annotation that
can be read, in order, and the file is finished if they all can, and given up otherwise. -/
inductive Block.IsOf (source : Source) (groups : List CommentGroup) : Block → Prop
  | finished (index : LineIndex) {summary : FileSummary} :
    (CommentGroup.readAll groups).2 = none → summary.path = source.path.toString →
      IsOf source groups (.finished source.path.toString (Run.claims index groups).1 summary)
  | aborted (index : LineIndex) {problem : Problem} :
    (CommentGroup.readAll groups).2 = some problem → problem.kind = .blankExpectation →
      IsOf source groups (.aborted source.path.toString (Run.claims index groups).1 problem)

namespace Check

variable {directory : Location} {unexpected : Bool} {run : Run} {ix : ProgramIndex}
  {file : Source × List CommentGroup} {files : List (Source × List CommentGroup)}

/-- The check of a file has ended with this failure, and its report lacks the end of a block: the
comments of the file and its markers disagree. -/
def BreaksOff (file : Source × List CommentGroup) (f : Failure) (events : List Event) : Prop :=
  Run.Disagrees file.1 file.2 ∧ (∃ p, f = .problem p ∧ p.kind.isUnder .internal = true) ∧
    ∃ index, events = Block.opening file.1.path.toString (Run.claims index file.2).1

/-- **What is told of one file:** a whole block, or, if its check fails, one that lacks its end. -/
theorem visit_events (directory : Location) (unexpected : Bool) (ix : ProgramIndex)
    (file : Source × List CommentGroup) :
    (∃ (s? : Option FileSummary) (block : Block),
        (visit directory unexpected ix file).2.2 = .ok s? ∧
        block.IsOf file.1 file.2 ∧
        (visit directory unexpected ix file).1.events = block.events) ∨
      ∃ f, (visit directory unexpected ix file).2.2 = .error f ∧
        BreaksOff file f (visit directory unexpected ix file).1.events := by
  cases hresult : (visit directory unexpected ix file).2.2 with
  | ok s? =>
    refine .inl ⟨s?, ?_⟩
    unfold visit at hresult ⊢
    rcases Run.checkFile_ok_cases hresult with ⟨hread, hcount, -⟩ | ⟨p, hread, hp, -⟩
    · rw [Run.checkFile_finished hread hcount]
      exact ⟨_, rfl, .finished _ hread rfl, rfl⟩
    · rw [Run.checkFile_blank hread hp]
      exact ⟨_, rfl, .aborted _ hread hp, rfl⟩
  | error f =>
    refine .inr ⟨f, rfl, ?_⟩
    unfold visit at hresult ⊢
    have hdisagrees := Run.checkFile_error_iff.mp ⟨f, hresult⟩
    refine ⟨hdisagrees, Run.internal_of_checkFile_error hresult,
      ix.forFile (placeOf directory file), ?_⟩
    rcases Run.end_cases file.1 file.2 with
      ⟨hread, hcount⟩ | ⟨hread, hcount⟩ | ⟨p, hread, hp⟩ | ⟨p, hread, hp⟩
    · rw [Run.checkFile_finished hread hcount] at hresult
      exact nomatch hresult
    · rw [Run.checkFile_mismatch hread hcount]
      rfl
    · rw [Run.checkFile_blank hread hp] at hresult
      exact nomatch hresult
    · rw [Run.checkFile_malformed hread hp]
      rfl

/-- What a check has told its report: a whole block for each file and the end, or whole blocks for
the files before one that has failed, and of this one what came before its failure. -/
inductive Reports (files : List (Source × List CommentGroup)) :
    Except Failure RunSummary → List Event → Prop
  | done {summary : RunSummary} {blocks : List Block} :
    List.Forall₂ (fun file b => b.IsOf file.1 file.2) files blocks →
      Reports files (.ok summary) (blocks.flatMap Block.events ++ [.done summary])
  | broken {before after : List (Source × List CommentGroup)} {file : Source × List CommentGroup}
      {blocks : List Block} {f : Failure} {last : List Event} :
    files = before ++ file :: after →
      List.Forall₂ (fun file b => b.IsOf file.1 file.2) before blocks →
      BreaksOff file f last →
      Reports files (.error f) (blocks.flatMap Block.events ++ last)

/-- One whole block more in front. -/
theorem Reports.cons {result : Except Failure RunSummary} {events : List Event}
    (h : Reports files result events) {block : Block} (hblock : block.IsOf file.1 file.2) :
    Reports (file :: files) result (block.events ++ events) := by
  cases h with
  | done hblocks =>
    rw [← List.append_assoc, ← List.flatMap_cons]
    exact .done (.cons hblock hblocks)
  | broken hfiles hblocks hlast =>
    subst hfiles
    rw [← List.append_assoc, ← List.flatMap_cons]
    exact .broken (List.cons_append ..).symm (.cons hblock hblocks) hlast

/-- **What is told of all files**, after what has been told before. -/
theorem checkAll_events (directory : Location) (ix : ProgramIndex)
    (files : List (Source × List CommentGroup)) (hclosed : run.current = none) :
    ∃ events, (checkAll directory run ix files).1.events = run.events ++ events ∧
      Reports files (checkAll directory run ix files).2 events := by
  -- each file finds a closed run, and an index that the files before have used
  induction files generalizing run ix with
  | nil =>
    rw [checkAll, Run.finish, hclosed]
    exact ⟨_, rfl, .done .nil⟩
  | cons file files ih =>
    rw [checkAll_visit hclosed]
    rcases visit_events directory run.unexpected ix file with
      ⟨s?, block, hresult, hblock, hevents⟩ | ⟨f, hresult, hbroken⟩
    · rw [hresult]
      dsimp only
      have hafter : (afterVisit directory run ix file).events = run.events ++ block.events := by
        rw [← hevents]
        rfl
      have hnone : (afterVisit directory run ix file).current = none :=
        (Run.closed_of_checkFile_ok hresult).1
      obtain ⟨events, hall, hreports⟩ := ih (ix.replace (placeOf directory file)
        (visit directory run.unexpected ix file).2.1) hnone
      refine ⟨block.events ++ events, ?_, hreports.cons hblock⟩
      rw [hall, hafter, List.append_assoc]
    · rw [hresult]
      exact ⟨_, rfl, .broken rfl .nil hbroken⟩

/-! ## Reports of runs and of checks -/

section

variable {w : Workspace} {collect : List Path → Collected} {paths : List Path}
  {sources : List Source} {ds : List Diagnostic}

/-- A check whose diagnostics can be put into an index comes to its files. -/
theorem perform_reports (unexpected : Bool) (walk : String → Dialect → List CommentGroup)
    (hload : load w paths = .ok sources)
    (hcollect : (collect (sources.map (·.path))).result = .ok ds)
    (hindex : ProgramIndex.ofList w.directory ds = .ok ix) :
    Reports (withGroups walk sources) (perform w (withGroups walk) collect unexpected paths).result
      (perform w (withGroups walk) collect unexpected paths).run.events := by
  unfold perform
  simp only [hload, hcollect, hindex]
  -- before the first file no file is open, and nothing has been told
  have hclosed : (opened (collect (sources.map (·.path))) unexpected sources ds).current = none :=
    rfl
  have hnothing : (opened (collect (sources.map (·.path))) unexpected sources ds).events = [] :=
    rfl
  obtain ⟨events, hevents, hreports⟩ :=
    checkAll_events w.directory ix (withGroups walk sources) hclosed
  rw [hnothing, List.nil_append] at hevents
  rw [← hevents] at hreports
  exact hreports

/-- A check whose diagnostics cannot be put into an index tells nothing. -/
theorem perform_of_index_error (unexpected : Bool)
    (groupsOf : List Source → List (Source × List CommentGroup))
    (hload : load w paths = .ok sources)
    (hcollect : (collect (sources.map (·.path))).result = .ok ds) {f : Path.Fault}
    (hindex : ProgramIndex.ofList w.directory ds = .error f) :
    (perform w groupsOf collect unexpected paths).result = .error (.unresolved f) ∧
      (perform w groupsOf collect unexpected paths).run.events = [] := by
  unfold perform
  rw [hload]
  dsimp only
  rw [hcollect]
  dsimp only
  rw [hindex]
  exact ⟨rfl, rfl⟩

end

/-- **A report is told whole blocks.** After any sequence of operations it has been told the blocks
of what was asked for and done, and of the open file what has been recorded so far, which is the
beginning of whole blocks, each about one file. The report of a check is told nothing unless the
files are loaded, the diagnostics collected and put into an index. Then it is told one block for
each file, in order, and the end, or stops within the block of the file that fails. -/
theorem reports_in_blocks :
    (∀ (unexpected : Bool) (ops : List Run.Operation),
      let state := Run.minuted unexpected ops
      Run.Told state.1 state.2 ∧
        ∃ blocks : List Block, (∀ b ∈ blocks, b.OfOneFile) ∧
          state.1.events <+: blocks.flatMap Block.events) ∧
    ∀ (w : Workspace) (walk : String → Dialect → List CommentGroup)
        (collect : List Path → Collected) (unexpected : Bool) (paths : List Path),
      let checked := perform w (withGroups walk) collect unexpected paths
      (∀ f, load w paths = .error f → checked.result = .error f ∧ checked.run.events = []) ∧
      ∀ sources, load w paths = .ok sources →
        (∀ f, (collect (sources.map (·.path))).result = .error f →
          checked.result = .error f ∧ checked.run.events = []) ∧
        ∀ ds, (collect (sources.map (·.path))).result = .ok ds →
          (∀ f, ProgramIndex.ofList w.directory ds = .error f →
            checked.result = .error (.unresolved f) ∧ checked.run.events = []) ∧
          ∀ ix, ProgramIndex.ofList w.directory ds = .ok ix →
            Reports (withGroups walk sources) checked.result checked.run.events := by
  constructor
  · intro unexpected ops
    have htold := Run.told_minuted unexpected ops
    refine ⟨htold, ?_⟩
    rw [htold.events]
    exact Run.Minutes.exists_blocks htold.oneFile
  · intro w walk collect unexpected paths
    refine ⟨fun f hload => ?_, fun sources hload => ⟨fun f hcollect => ?_, fun ds hcollect =>
      ⟨fun f hindex => ?_, fun ix hindex => ?_⟩⟩⟩
    · unfold perform
      rw [hload]
      exact ⟨rfl, rfl⟩
    · unfold perform
      rw [hload]
      dsimp only
      rw [hcollect]
      exact ⟨rfl, rfl⟩
    · exact perform_of_index_error unexpected (withGroups walk) hload hcollect hindex
    · exact perform_reports unexpected walk hload hcollect hindex

/-- The report of the check of the two files is told a block for each of them, and the end. -/
theorem checkPair_reports : ∃ blocks summary,
    List.Forall₂ (fun file b => b.IsOf file.1 file.2)
        (withGroups (fun text _ => [⟨0, [text]⟩]) pairSources) blocks ∧
      (checkPair [pairDiagnostic] (pairSources.map (·.path))).run.events =
        blocks.flatMap Block.events ++ [.done summary] := by
  obtain ⟨-, h⟩ := (reports_in_blocks.2 pairWorkspace (fun text _ => [⟨0, [text]⟩])
    (given [pairDiagnostic]) true (pairSources.map (·.path))).2 pairSources load_pair
  have hreports := (h [pairDiagnostic] (result_given _ _)).2 _ rfl
  have hresult := result_checkPair
  unfold checkPair at hresult ⊢
  rw [hresult] at hreports
  -- the check has ended with a summary, so no block of its report lacks its end
  generalize (perform pairWorkspace (withGroups fun text _ => [⟨0, [text]⟩])
    (given [pairDiagnostic]) true (pairSources.map (·.path))).run.events = events at hreports ⊢
  cases hreports with
  | done hblocks => exact ⟨_, _, hblocks, rfl⟩

/-- With a diagnostic on a file that no path can name, the files are loaded, the diagnostics are
collected, and no file fails, but the report is told nothing. -/
theorem silent_checkPair :
    load pairWorkspace (pairSources.map (·.path)) = .ok pairSources ∧
      (given [nullDiagnostic] (pairSources.map (·.path))).result = .ok [nullDiagnostic] ∧
      ¬ Internal (checkPair [nullDiagnostic] (pairSources.map (·.path))).result ∧
      (checkPair [nullDiagnostic] (pairSources.map (·.path))).run.events = [] := by
  have hresult : (checkPair [nullDiagnostic] (pairSources.map (·.path))).result =
      .error (.unresolved .nullCharacter) := rfl
  refine ⟨rfl, rfl, ?_, rfl⟩
  rintro ⟨p, hp, -⟩
  exact nomatch hresult.symm.trans hp

end Check

end ExpectedDiagnostics
