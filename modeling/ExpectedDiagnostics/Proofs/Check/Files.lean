import ExpectedDiagnostics.Check
import ExpectedDiagnostics.Proofs.Index.Program
import ExpectedDiagnostics.Proofs.Run.File
import ExpectedDiagnostics.Proofs.Run.History

/-!
# A check file by file

The files of a check share one index and one run. If they are different files, this makes no
difference: a file takes from its own part of the index only, and the run carries its past along
unseen. So each file is checked as if it were alone (`alone`), and the check puts the results
together.

Main results:

* `checkAll_ok` — no file alone fails: the check ends with the sums of what the files count and with
  their histories one after the other.
* `checkAll_error` — the first file that fails alone ends the check.
* `perform_internal_iff` / `perform_ok` — a whole check, once its files are loaded and diagnostics
  collected: when it fails, and what it ends with otherwise.
* `perform_of_not_allResolve` — the check of diagnostics with a file that is no path.
-/

namespace ExpectedDiagnostics.Check

def placeOf (directory : Location) (file : Source × List CommentGroup) : Location :=
  file.1.path.place directory

theorem map_placeOf_withGroups (directory : Location) (walk : String → Dialect → List CommentGroup)
    (sources : List Source) :
    (withGroups walk sources).map (placeOf directory) =
      sources.map fun s => s.path.place directory := by
  unfold withGroups
  rw [List.map_map]
  rfl

/-- The check of a file alone, with an index of the diagnostics about it only. -/
def alone (directory : Location) (unexpected : Bool) (ds : List Diagnostic)
    (file : Source × List CommentGroup) : Run × LineIndex × Except Failure (Option FileSummary) :=
  (Run.start unexpected).checkFile file.1
    (.ofList (Diagnostic.about directory (placeOf directory file) ds)) file.2

/-- The index holds, for each of these files, the diagnostics about it. -/
def Holds (directory : Location) (ds : List Diagnostic) (ix : ProgramIndex)
    (files : List (Source × List CommentGroup)) : Prop :=
  ∀ file ∈ files, ix.forFile (placeOf directory file) =
    .ofList (Diagnostic.about directory (placeOf directory file) ds)

variable {directory : Location} {unexpected : Bool} {ds : List Diagnostic}

/-- Giving one file another index keeps the index of files at other places. -/
theorem Holds.replace {ix : ProgramIndex} {file : Source × List CommentGroup}
    {files : List (Source × List CommentGroup)} (h : Holds directory ds ix (file :: files))
    (hplaces : ((file :: files).map (placeOf directory)).Nodup) (lines : LineIndex) :
    Holds directory ds (ix.replace (placeOf directory file) lines) files := by
  intro other hother
  rw [List.map_cons, List.nodup_cons] at hplaces
  -- the files are at different places, so another one does not get the new index
  have hne : ¬ placeOf directory other = placeOf directory file := by
    intro heq
    exact hplaces.1 (heq ▸ List.mem_map_of_mem hother)
  rw [ProgramIndex.forFile_replace, if_neg fun hboth => hne hboth.1]
  exact h other (List.mem_cons_of_mem _ hother)

/-- The run once it has checked the next file, which is checked as if it were alone. -/
def afterFile (directory : Location) (ds : List Diagnostic) (run : Run)
    (file : Source × List CommentGroup) : Run :=
  (run.note .debug ("Checking " ++ file.1.path.toString)).followedBy
    (alone directory run.unexpected ds file).1

/-- A file that does not fail leaves a closed run that looks for problems as before. -/
theorem closed_afterFile {run : Run} {file : Source × List CommentGroup} {s? : Option FileSummary}
    (h : (alone directory run.unexpected ds file).2.2 = .ok s?) :
    (afterFile directory ds run file).current = none ∧
      (afterFile directory ds run file).unexpected = run.unexpected := by
  obtain ⟨hnone, hun, -⟩ := Run.closed_of_checkFile_ok h
  exact ⟨hnone, hun⟩

theorem checkAll_cons {run : Run} {ix : ProgramIndex} {file : Source × List CommentGroup}
    {files : List (Source × List CommentGroup)} (hclosed : run.current = none)
    (hix : Holds directory ds ix (file :: files)) :
    checkAll directory run ix (file :: files) =
      match (alone directory run.unexpected ds file).2.2 with
      | .error f => (afterFile directory ds run file, .error f)
      | .ok _ => checkAll directory (afterFile directory ds run file)
          (ix.replace (placeOf directory file) (alone directory run.unexpected ds file).2.1)
          files := by
  obtain ⟨source, groups⟩ := file
  have hlines := hix _ List.mem_cons_self
  unfold placeOf at hlines
  rw [checkAll]
  dsimp only at hlines ⊢
  -- the run so far is the past of the check, and the index of the file is the one it has alone
  rw [Run.checkFile_followedBy (run.note .debug ("Checking " ++ source.path.toString)) hclosed,
    hlines]
  rfl

/-! ## All files -/

/-- If no file alone fails, the check ends with the sums of what the files count, and with their
histories one after the other. -/
theorem checkAll_ok {run : Run} {ix : ProgramIndex} {files : List (Source × List CommentGroup)}
    (hclosed : run.current = none) (hplaces : (files.map (placeOf directory)).Nodup)
    (hix : Holds directory ds ix files)
    (hok : ∀ file ∈ files, ∃ s?, (alone directory run.unexpected ds file).2.2 = .ok s?) :
    ∃ last : Run,
      checkAll directory run ix files = (last.tell (.done last.summary), .ok last.summary) ∧
      last.unexpected = run.unexpected ∧
      last.totals =
        run.totals + (files.map fun f => (alone directory run.unexpected ds f).1.totals).sum ∧
      last.fileCount = run.fileCount + files.length ∧
      last.aborted =
        run.aborted ++ files.flatMap (fun f => (alone directory run.unexpected ds f).1.aborted) ∧
      last.events =
        run.events ++ files.flatMap (fun f => (alone directory run.unexpected ds f).1.events) := by
  -- the induction keeps that no file is open and that the index holds what is about the others
  induction files generalizing run ix with
  | nil =>
    refine ⟨run, ?_, rfl, ?_, rfl, ?_, ?_⟩
    · rw [checkAll, Run.finish, hclosed]
    · rw [List.map_nil, List.sum_nil, add_zero]
    · rw [List.flatMap_nil, List.append_nil]
    · rw [List.flatMap_nil, List.append_nil]
  | cons file files ih =>
    obtain ⟨s?, hs⟩ := hok file List.mem_cons_self
    obtain ⟨hnone, hun⟩ := closed_afterFile hs
    have htail : (files.map (placeOf directory)).Nodup := (List.nodup_cons.mp hplaces).2
    have hrest : ∀ f ∈ files, ∃ s?,
        (alone directory (afterFile directory ds run file).unexpected ds f).2.2 = .ok s? := by
      rw [hun]
      exact fun f hf => hok f (List.mem_cons_of_mem _ hf)
    obtain ⟨last, hall, hlast, htotals, hfiles, haborted, hevents⟩ :=
      ih hnone htail (hix.replace hplaces _) hrest
    rw [hun] at hlast htotals haborted hevents
    refine ⟨last, ?_, hlast, ?_, ?_, ?_, ?_⟩
    · rw [checkAll_cons hclosed hix, hs]
      exact hall
    · rw [htotals, List.map_cons, List.sum_cons, ← add_assoc]
      rfl
    · rw [hfiles, List.length_cons]
      -- the check of the file alone has counted one file
      have hone : (afterFile directory ds run file).fileCount = run.fileCount + 1 := by
        obtain ⟨-, -, hcount, -⟩ := Run.closed_of_checkFile_ok hs
        rw [← hcount]
        rfl
      omega
    · rw [haborted, List.flatMap_cons, ← List.append_assoc]
      rfl
    · rw [hevents, List.flatMap_cons, ← List.append_assoc]
      rfl

/-- The first file that fails alone ends the check. -/
theorem checkAll_error {run : Run} {ix : ProgramIndex}
    {before after : List (Source × List CommentGroup)} {file : Source × List CommentGroup}
    {f : Failure} (hclosed : run.current = none)
    (hplaces : ((before ++ file :: after).map (placeOf directory)).Nodup)
    (hix : Holds directory ds ix (before ++ file :: after))
    (hok : ∀ b ∈ before, ∃ s?, (alone directory run.unexpected ds b).2.2 = .ok s?)
    (hfail : (alone directory run.unexpected ds file).2.2 = .error f) :
    (checkAll directory run ix (before ++ file :: after)).2 = .error f := by
  induction before generalizing run ix with
  | nil =>
    rw [List.nil_append] at hix ⊢
    rw [checkAll_cons hclosed hix, hfail]
  | cons b before ih =>
    rw [List.cons_append] at hplaces hix ⊢
    obtain ⟨s?, hs⟩ := hok b List.mem_cons_self
    obtain ⟨hnone, hun⟩ := closed_afterFile hs
    rw [checkAll_cons hclosed hix, hs]
    dsimp only
    -- the files before do not fail, so the check goes on to this one in a closed run
    apply ih hnone (List.nodup_cons.mp hplaces).2 (hix.replace hplaces _)
    · rw [hun]
      exact fun x hx => hok x (List.mem_cons_of_mem _ hx)
    · rw [hun]
      exact hfail

theorem alone_error_iff {file : Source × List CommentGroup} :
    (∃ f, (alone directory unexpected ds file).2.2 = .error f) ↔ Run.Disagrees file.1 file.2 :=
  Run.checkFile_error_iff

theorem alone_ok_of_not_disagrees {file : Source × List CommentGroup}
    (h : ¬ Run.Disagrees file.1 file.2) :
    ∃ s?, (alone directory unexpected ds file).2.2 = .ok s? := by
  cases hresult : (alone directory unexpected ds file).2.2 with
  | ok s? => exact ⟨s?, rfl⟩
  | error f => exact absurd (alone_error_iff.mp ⟨f, hresult⟩) h

/-- The first element of a list with a property, and what comes before it. -/
private theorem exists_first {α : Type} {p : α → Prop} {xs : List α} (h : ∃ x ∈ xs, p x) :
    ∃ before x after, xs = before ++ x :: after ∧ p x ∧ ∀ b ∈ before, ¬ p b := by
  induction xs with
  | nil => simp at h
  | cons x xs ih =>
    by_cases hx : p x
    · exact ⟨[], x, xs, rfl, hx, by simp⟩
    · have htail : ∃ y ∈ xs, p y := by
        obtain ⟨y, hy, hpy⟩ := h
        rcases List.mem_cons.mp hy with rfl | hmem
        · exact absurd hpy hx
        · exact ⟨y, hmem, hpy⟩
      obtain ⟨before, y, after, rfl, hy, hbefore⟩ := ih htail
      refine ⟨x :: before, y, after, rfl, hy, ?_⟩
      intro b hb
      rcases List.mem_cons.mp hb with rfl | hb
      · exact hx
      · exact hbefore b hb

def Internal (result : Except Failure RunSummary) : Prop :=
  ∃ p, result = .error (.problem p) ∧ p.kind.isUnder .internal = true

/-- A check fails with an internal problem as soon as the comments and the markers of some file
disagree. -/
theorem checkAll_internal {run : Run} {ix : ProgramIndex}
    {files : List (Source × List CommentGroup)} (hclosed : run.current = none)
    (hplaces : (files.map (placeOf directory)).Nodup) (hix : Holds directory ds ix files)
    (hbad : ∃ file ∈ files, Run.Disagrees file.1 file.2) :
    Internal (checkAll directory run ix files).2 := by
  obtain ⟨before, file, after, rfl, hfile, hbefore⟩ := exists_first hbad
  -- the files before the first such one are checked without failing, so it is reached
  have hfails : ∃ f, (alone directory run.unexpected ds file).2.2 = .error f :=
    alone_error_iff.mpr hfile
  obtain ⟨f, hf⟩ := hfails
  obtain ⟨p, rfl, hp⟩ := Run.internal_of_checkFile_error hf
  exact ⟨p, checkAll_error hclosed hplaces hix
    (fun b hb => alone_ok_of_not_disagrees (hbefore b hb)) hf, hp⟩

/-! ## From paths -/

/-- The run of a check before its first file, once diagnostics have been collected. -/
def opened (collected : Collected) (unexpected : Bool) (sources : List Source)
    (ds : List Diagnostic) : Run :=
  let run := (Run.start unexpected).note .info
    ("Collecting diagnostics for " ++ toString sources.length ++ " file(s)")
  let run := { run with log := run.log ++ collected.log }
  let run := run.note .info ("Checker reported " ++ toString ds.length ++ " diagnostic(s)")
  { run with log := run.log ++ globalRecords ds }

section

variable {w : Workspace} {groupsOf : List Source → List (Source × List CommentGroup)}
  {collect : List Path → Collected} {paths : List Path} {sources : List Source}

/-- A whole check, once its files are loaded and diagnostics collected that can all be resolved. -/
theorem perform_eq (unexpected : Bool)
    (groupsOf : List Source → List (Source × List CommentGroup))
    (hload : load w paths = .ok sources)
    (hcollect : (collect (sources.map (·.path))).result = .ok ds)
    (hds : Diagnostic.AllResolve w.directory ds) :
    ∃ ix run, Holds w.directory ds ix (groupsOf sources) ∧
      run = opened (collect (sources.map (·.path))) unexpected sources ds ∧
      (perform w groupsOf collect unexpected paths).run =
        (checkAll w.directory run ix (groupsOf sources)).1 ∧
      (perform w groupsOf collect unexpected paths).result =
        (checkAll w.directory run ix (groupsOf sources)).2 := by
  obtain ⟨ix, hix, hplaces⟩ := ProgramIndex.ofList_eq_ok hds
  refine ⟨ix, _, fun file _ => hplaces _, rfl, ?_⟩
  unfold perform
  rw [hload]
  dsimp only
  rw [hcollect]
  dsimp only
  rw [hix]
  exact ⟨rfl, rfl⟩

/-- If the comments and the markers of no file disagree, the check ends with a summary of what its
files come to alone, and has told their histories one after the other. -/
theorem perform_ok (unexpected : Bool) (hload : load w paths = .ok sources)
    (hplaces : ((groupsOf sources).map (placeOf w.directory)).Nodup)
    (hcollect : (collect (sources.map (·.path))).result = .ok ds)
    (hds : Diagnostic.AllResolve w.directory ds)
    (hgood : ∀ file ∈ groupsOf sources, ¬ Run.Disagrees file.1 file.2) :
    ∃ summary, (perform w groupsOf collect unexpected paths).result = .ok summary ∧
      summary.totals =
        ((groupsOf sources).map fun f => (alone w.directory unexpected ds f).1.totals).sum ∧
      summary.fileCount = (groupsOf sources).length ∧
      summary.aborted =
        (groupsOf sources).flatMap (fun f => (alone w.directory unexpected ds f).1.aborted) ∧
      summary.passed = (summary.totals.passed unexpected && summary.aborted.isEmpty) ∧
      (perform w groupsOf collect unexpected paths).run.events =
        (groupsOf sources).flatMap (fun f => (alone w.directory unexpected ds f).1.events) ++
          [.done summary] := by
  obtain ⟨ix, run, hix, hrun, hperformed, hresult⟩ :=
    perform_eq unexpected groupsOf hload hcollect hds
  have hun : run.unexpected = unexpected := by rw [hrun]; rfl
  have hclosed : run.current = none := by rw [hrun]; rfl
  obtain ⟨last, hall, hlast, htotals, hfiles, haborted, hevents⟩ :=
    checkAll_ok hclosed hplaces hix
      fun f hf => alone_ok_of_not_disagrees (hgood f hf)
  rw [hun] at hlast htotals haborted hevents
  -- the run before the first file has counted and told nothing, so what it ends with is the sum
  refine ⟨last.summary, ?_, ?_, ?_, ?_, ?_, ?_⟩
  · rw [hresult, hall]
  · unfold Run.summary
    rw [htotals, show run.totals = (0 : Counts) by rw [hrun]; rfl, zero_add]
  · unfold Run.summary
    rw [hfiles, show run.fileCount = 0 by rw [hrun]; rfl, Nat.zero_add]
  · unfold Run.summary
    rw [haborted, show run.aborted = [] by rw [hrun]; rfl, List.nil_append]
  · unfold Run.summary
    rw [hlast]
  · rw [hperformed, hall]
    unfold Run.tell
    rw [hevents, show run.events = [] by rw [hrun]; rfl, List.nil_append]

/-- A check fails with an internal problem exactly if the comments and the markers of some file
disagree. -/
theorem perform_internal_iff (hload : load w paths = .ok sources)
    (hplaces : ((groupsOf sources).map (placeOf w.directory)).Nodup)
    (hcollect : (collect (sources.map (·.path))).result = .ok ds)
    (hds : Diagnostic.AllResolve w.directory ds) :
    Internal (perform w groupsOf collect unexpected paths).result ↔
      ∃ file ∈ groupsOf sources, Run.Disagrees file.1 file.2 := by
  constructor
  · rintro ⟨p, hp, -⟩
    by_contra hgood
    push Not at hgood
    -- if no file were so, the check would end with a summary
    obtain ⟨summary, hsummary, -⟩ :=
      perform_ok unexpected hload hplaces hcollect hds hgood
    rw [hp] at hsummary
    exact absurd hsummary (by simp)
  · intro hbad
    obtain ⟨ix, run, hix, hrun, -, hresult⟩ :=
      perform_eq unexpected groupsOf hload hcollect hds
    rw [hresult]
    exact checkAll_internal (by rw [hrun]; rfl) hplaces hix hbad

/-- A check of diagnostics with a file that cannot be resolved ends before the first file. -/
theorem perform_of_not_allResolve (unexpected : Bool)
    (groupsOf : List Source → List (Source × List CommentGroup))
    (hload : load w paths = .ok sources)
    (hcollect : (collect (sources.map (·.path))).result = .ok ds)
    (hds : ¬ Diagnostic.AllResolve w.directory ds) :
    (perform w groupsOf collect unexpected paths).result = .error (.unresolved .nullCharacter) := by
  unfold perform
  rw [hload]
  dsimp only
  rw [hcollect]
  dsimp only
  cases hindex : ProgramIndex.ofList w.directory ds with
  | ok ix => exact absurd (ProgramIndex.allResolve_of_addAll hindex) hds
  | error f =>
    cases f
    rfl

end

/-! ## A check of two files -/

/-- Two files, the first of which is an annotation of its own line. -/
def pairSources : List Source :=
  [⟨.ofString "a.ts", "//%ts-expect-error:(1)"⟩, ⟨.ofString "b.ts", ""⟩]

def pairWorkspace : Workspace :=
  ⟨⟨[], [(⟨["a.ts"]⟩, Utf8.encode "//@ts-expect-error:(1)".toList), (⟨["b.ts"]⟩, [])]⟩,
    .root, .root, ""⟩

def pairDiagnostic : Diagnostic := ⟨some "/a.ts", 0, .text "m", 1, 0, "error"⟩

/-- A diagnostic with a file that no path can name. -/
def nullDiagnostic : Diagnostic := ⟨some "a\x00b", 0, .text "m", 1, 0, "error"⟩

/-- A checker that gives these diagnostics whatever the files are. -/
def given (ds : List Diagnostic) (_ : List Path) : Collected := ⟨[], .ok ds⟩

/-- The check of the two files, where a text is one comment group, with these diagnostics. -/
def checkPair (ds : List Diagnostic) (paths : List Path) : Checked :=
  perform pairWorkspace (withGroups fun text _ => [⟨0, [text]⟩]) (given ds) true paths

theorem load_pair : load pairWorkspace (pairSources.map (·.path)) = .ok pairSources := rfl

theorem result_given (ds : List Diagnostic) (paths : List Path) :
    (given ds paths).result = .ok ds := rfl

theorem resolves_pairDiagnostic : Diagnostic.AllResolve .root [pairDiagnostic] := by
  intro d hd file hfile
  rw [List.mem_singleton.mp hd] at hfile
  exact ⟨⟨["a.ts"]⟩, by rw [← Option.some.inj hfile]; rfl⟩

theorem result_checkPair : (checkPair [pairDiagnostic] (pairSources.map (·.path))).result =
    .ok ⟨⟨1, 0, 0⟩, 2, [], true⟩ := rfl

end ExpectedDiagnostics.Check
