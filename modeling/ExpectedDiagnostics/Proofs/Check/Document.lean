import ExpectedDiagnostics.Proofs.Check.Repeats
import ExpectedDiagnostics.Proofs.Report.Document
import ExpectedDiagnostics.Proofs.Run.Blocks

/-!
# The document of a check

A report as a document puts together what was told when files ended, the totals of the run, and what
the run has written down of the files that were given up. All of this grows with each file, and it
stays in agreement (`Tallied`): a file adds one entry, its counts go into the totals if it is
finished, and its path into the files that were given up if it is not. So the document of a check
agrees with itself, and has an entry for each file in the order in which the files are given.

Main results:

* `visit_tallied` — the check of one file, whatever the files before it have left in the index.
* `Tallied.followedBy` — a file more keeps the run in agreement with its entries.
* `checkAll_tallied` — so it is at the end of a check.
* `report_complete` — what is printed of a check that ends: one document, which is complete.
-/

namespace ExpectedDiagnostics

open Report.Document (Entry Sheet)

/-! ## Complete documents -/

namespace Report.Document

/-- The entry of a finished file adds up: there are as many failures as it counts, the leftovers are
on as many lines as it counts, and it has passed if there is no problem among them. -/
structure AddsUp (unexpected : Bool) (s : FileSummary) : Prop where
  failures : s.failures.length = s.counts.failures
  leftovers : (s.leftovers.map fun d => d.line + 1).toFinset.card = s.counts.leftovers
  passed : s.passed = true ↔
    s.counts.failures = 0 ∧ (unexpected = false ∨ s.counts.leftovers = 0)

/-- A sheet is complete for these files: it has an entry for each of them in order, the entries add
up, and what it says of the run is what they come to. -/
structure Sheet.Complete (sheet : Sheet) (unexpected : Bool) (paths : List Path) : Prop where
  setting : sheet.unexpected = unexpected
  files : sheet.entries.map Entry.file = paths.map (·.toString)
  addUp : ∀ s, .finished s ∈ sheet.entries → AddsUp unexpected s
  aborted : sheet.aborted = (sheet.entries.filter Entry.isAborted).map Entry.file
  fileCount : sheet.fileCount = sheet.entries.length
  totals : sheet.totals = (sheet.entries.filterMap Entry.counts?).sum
  passed : sheet.passed = true ↔ ∀ e ∈ sheet.entries, e.passed = true

end Report.Document

open Report.Document (AddsUp)

/-! ## Runs and their entries -/

namespace Run

/-- The entries for the files that have ended. -/
def entries (run : Run) : List Entry :=
  run.events.filterMap Entry.ofEvent?

/-- A run that is not done yet, and agrees with its entries. -/
structure Tallied (run : Run) : Prop where
  closed : run.current = none
  goesOn : ∀ e ∈ run.events, ∀ s, e ≠ .done s
  addUp : ∀ s, .finished s ∈ run.entries → AddsUp run.unexpected s ∧ s.counts.Nonnegative ∧
    s.passed = s.counts.passed run.unexpected
  aborted : run.aborted = (run.entries.filter Entry.isAborted).map Entry.file
  fileCount : run.fileCount = run.entries.length
  totals : run.totals = (run.entries.filterMap Entry.counts?).sum

theorem tallied_of_empty {run : Run} (hclosed : run.current = none) (hevents : run.events = [])
    (haborted : run.aborted = []) (hcount : run.fileCount = 0) (htotals : run.totals = 0) :
    run.Tallied := by
  have hentries : run.entries = [] := by
    unfold entries
    rw [hevents]
    rfl
  constructor
  · exact hclosed
  · rw [hevents]
    exact fun e he => absurd he List.not_mem_nil
  · rw [hentries]
    exact fun s hs => absurd hs List.not_mem_nil
  · rw [hentries, haborted]
    rfl
  · rw [hentries, hcount]
    rfl
  · rw [hentries, htotals]
    rfl

theorem entries_followedBy (run later : Run) :
    (run.followedBy later).entries = run.entries ++ later.entries :=
  List.filterMap_append

/-- **One file more.** What a file adds to a run keeps the run in agreement with its entries. -/
theorem Tallied.followedBy {run later : Run} (h : run.Tallied) (hlater : later.Tallied)
    (hsame : later.unexpected = run.unexpected) : (run.followedBy later).Tallied := by
  constructor
  · exact hlater.closed
  · intro e he
    rcases List.mem_append.mp he with he | he
    · exact h.goesOn e he
    · exact hlater.goesOn e he
  · intro s hs
    rw [entries_followedBy, List.mem_append] at hs
    rcases hs with hs | hs
    · have hunexpected : (run.followedBy later).unexpected = run.unexpected := hsame
      rw [hunexpected]
      exact h.addUp s hs
    · exact hlater.addUp s hs
  · rw [entries_followedBy, List.filter_append, List.map_append, ← h.aborted, ← hlater.aborted]
    rfl
  · rw [entries_followedBy, List.length_append, ← h.fileCount, ← hlater.fileCount]
    rfl
  · rw [entries_followedBy, List.filterMap_append, List.sum_append, ← h.totals, ← hlater.totals]
    rfl

/-- A run that agrees with its entries passes exactly if all of them have passed. -/
theorem Tallied.passed_iff {run : Run} (h : run.Tallied) :
    run.summary.passed = true ↔ ∀ e ∈ run.entries, e.passed = true := by
  -- no count is negative, so the problems of one file are not made up for by another one
  have hnonneg : ∀ c ∈ run.entries.filterMap Entry.counts?, c.Nonnegative := by
    intro c hc
    obtain ⟨e, he, hcounts⟩ := List.mem_filterMap.mp hc
    cases e with
    | finished s =>
      obtain rfl : s.counts = c := Option.some.inj hcounts
      exact (h.addUp s he).2.1
    | aborted file error => exact nomatch hcounts
  unfold summary
  rw [Bool.and_eq_true, h.totals, Counts.passed_sum_iff hnonneg, List.isEmpty_iff, h.aborted,
    List.map_eq_nil_iff, List.filter_eq_nil_iff]
  constructor
  · rintro ⟨hpassed, hnone⟩ e he
    cases e with
    | finished s =>
      have hs := hpassed s.counts (List.mem_filterMap.mpr ⟨_, he, rfl⟩)
      rwa [← (h.addUp s he).2.2] at hs
    | aborted file error => exact absurd rfl (hnone _ he)
  · intro hall
    refine ⟨?_, ?_⟩
    · intro c hc
      obtain ⟨e, he, hcounts⟩ := List.mem_filterMap.mp hc
      cases e with
      | finished s =>
        obtain rfl : s.counts = c := Option.some.inj hcounts
        rw [← (h.addUp s he).2.2]
        exact hall _ he
      | aborted file error => exact nomatch hcounts
    · intro e he haborted
      cases e with
      | finished s => exact absurd haborted Bool.false_ne_true
      | aborted file error => exact absurd (hall _ he) Bool.false_ne_true

/-- What is told of a finished file adds up, if the diagnostics that are left over are on their own
lines. -/
theorem addsUp_summaryOf (unexpected : Bool) (source : Source) (os : List Outcome)
    {rest : LineIndex} (hrest : rest.OnOwnLines) :
    AddsUp unexpected (summaryOf unexpected source os rest) where
  failures := by
    have hcount := List.countP_eq_length_filter (p := fun o : Outcome => !o.ok) (l := os)
    unfold summaryOf countsOf
    dsimp only
    rw [hcount]
  leftovers := by
    unfold summaryOf countsOf
    rw [LineIndex.card_lines_leftovers hrest]
  passed := by
    unfold summaryOf
    rw [Counts.passed_iff (nonnegative_countsOf os rest)]
    cases unexpected with
    | false => simp
    | true => simp

/-- What is told of one file makes one entry, for its end. -/
theorem entries_of_block {run : Run} {path : String} {os : List Outcome} {last : Event}
    {entry : Entry} (hevents : run.events = Block.opening path os ++ [last])
    (hlast : Entry.ofEvent? last = some entry) :
    run.entries = [entry] ∧ ∀ e ∈ run.events, ∀ s, e ≠ .done s := by
  have hopening : ∀ e ∈ Block.opening path os, Entry.ofEvent? e = none ∧ ∀ s, e ≠ .done s := by
    intro e he
    rcases List.mem_cons.mp he with rfl | he
    · exact ⟨rfl, nofun⟩
    · obtain ⟨o, -, rfl⟩ := List.mem_map.mp he
      exact ⟨rfl, nofun⟩
  constructor
  · unfold entries
    rw [hevents, List.filterMap_append,
      List.filterMap_eq_nil_iff.mpr fun e he => (hopening e he).1, List.nil_append,
      List.filterMap_cons_some hlast, List.filterMap_nil]
  · rw [hevents]
    intro e he s
    rcases List.mem_append.mp he with he | he
    · exact (hopening e he).2 s
    · rintro rfl
      rw [← List.mem_singleton.mp he] at hlast
      exact nomatch hlast

/-- A run of one file agrees with the entry for the file, if it has counted what the entry says. -/
theorem tallied_of_block {run : Run} {path : String} {os : List Outcome} {last : Event}
    {entry : Entry} (hclosed : run.current = none)
    (hevents : run.events = Block.opening path os ++ [last])
    (hlast : Entry.ofEvent? last = some entry) (hfile : entry.file = path)
    (haddUp : ∀ s, entry = .finished s → AddsUp run.unexpected s ∧ s.counts.Nonnegative ∧
      s.passed = s.counts.passed run.unexpected)
    (haborted : run.aborted = ([entry].filter Entry.isAborted).map Entry.file)
    (hcount : run.fileCount = 1) (htotals : run.totals = ([entry].filterMap Entry.counts?).sum) :
    run.Tallied ∧ run.entries.map Entry.file = [path] := by
  obtain ⟨hentries, hgoesOn⟩ := entries_of_block hevents hlast
  refine ⟨?_, by rw [hentries, List.map_singleton, hfile]⟩
  constructor
  · exact hclosed
  · exact hgoesOn
  · rw [hentries]
    intro s hs
    exact haddUp s (List.mem_singleton.mp hs).symm
  · rwa [hentries]
  · rw [hentries, hcount]
    rfl
  · rwa [hentries]

theorem onOwnLines_claims {index : LineIndex} (h : index.OnOwnLines) (groups : List CommentGroup) :
    (claims index groups).2.OnOwnLines := by
  refine h.of_subset ?_
  unfold claims
  rw [Outcome.entries_claimAll]
  exact List.filter_sublist.subset

/-- **The check of one file** as the first one of its run. It makes one entry, for the file. -/
theorem checkFile_tallied {unexpected : Bool} {source : Source} {index : LineIndex}
    {groups : List CommentGroup} {s? : Option FileSummary} (hindex : index.OnOwnLines)
    (h : ((start unexpected).checkFile source index groups).2.2 = .ok s?) :
    let run := ((start unexpected).checkFile source index groups).1
    run.Tallied ∧ run.entries.map Entry.file = [source.path.toString] := by
  have hrest := onOwnLines_claims hindex groups
  rcases checkFile_ok_cases h with ⟨hread, hcount, -⟩ | ⟨p, hread, hp, -⟩
  · rw [checkFile_finished hread hcount]
    dsimp only
    have hadds := addsUp_summaryOf unexpected source (claims index groups).1 hrest
    have hnonneg := nonnegative_countsOf (claims index groups).1 (claims index groups).2
    refine tallied_of_block rfl rfl rfl rfl ?_ rfl rfl rfl
    intro s hs
    obtain rfl := Entry.finished.inj hs
    exact ⟨hadds, hnonneg, rfl⟩
  · rw [checkFile_blank hread hp]
    dsimp only
    refine tallied_of_block rfl rfl rfl rfl ?_ rfl rfl rfl
    exact nofun

end Run

/-! ## All files -/

namespace Check

variable {directory : Location} {run : Run} {ix : ProgramIndex}
  {file : Source × List CommentGroup} {files : List (Source × List CommentGroup)}
  {summary : RunSummary}

/-- One file more keeps the run in agreement with its entries, and makes one for the file. -/
theorem afterVisit_tallied (hrun : run.Tallied)
    (hix : (ix.forFile (placeOf directory file)).OnOwnLines) {s? : Option FileSummary}
    (h : (visit directory run.unexpected ix file).2.2 = .ok s?) :
    (afterVisit directory run ix file).Tallied ∧
      (afterVisit directory run ix file).unexpected = run.unexpected ∧
      (afterVisit directory run ix file).entries.map Entry.file =
        run.entries.map Entry.file ++ [file.1.path.toString] := by
  obtain ⟨htallied, hfile⟩ := Run.checkFile_tallied hix h
  obtain ⟨-, hsame, -⟩ := Run.closed_of_checkFile_ok h
  -- a note in the log is no matter for the entries
  have hnoted : (run.note .debug ("Checking " ++ file.1.path.toString)).Tallied :=
    ⟨hrun.closed, hrun.goesOn, hrun.addUp, hrun.aborted, hrun.fileCount, hrun.totals⟩
  refine ⟨hnoted.followedBy htallied hsame, hsame, ?_⟩
  unfold afterVisit
  rw [Run.entries_followedBy, List.map_append]
  unfold visit
  rw [hfile]
  rfl

/-- **A check that ends** has told the entries of its files in order, and at last what they come
to. -/
theorem checkAll_tallied (hrun : run.Tallied)
    (hix : ∀ place, (ix.forFile place).OnOwnLines)
    (h : (checkAll directory run ix files).2 = .ok summary) :
    ∃ last : Run, last.Tallied ∧ last.unexpected = run.unexpected ∧
      last.entries.map Entry.file =
        run.entries.map Entry.file ++ files.map (fun file => file.1.path.toString) ∧
      (checkAll directory run ix files).1.events = last.events ++ [.done summary] ∧
      summary = last.summary := by
  -- the files so far have made their entries, and have only taken from the index
  induction files generalizing run ix with
  | nil =>
    have hend : checkAll directory run ix [] = (run.tell (.done run.summary), .ok run.summary) := by
      rw [checkAll, Run.finish, hrun.closed]
    rw [hend] at h ⊢
    obtain rfl := Except.ok.inj h
    exact ⟨run, hrun, rfl, (List.append_nil _).symm, rfl, rfl⟩
  | cons file files ih =>
    rw [checkAll_visit hrun.closed] at h ⊢
    cases hresult : (visit directory run.unexpected ix file).2.2 with
    | error f =>
      rw [hresult] at h
      cases h
    | ok s? =>
      rw [hresult] at h
      dsimp only at h ⊢
      obtain ⟨htallied, hsame, hfile⟩ := afterVisit_tallied hrun (hix _) hresult
      have hleft : (visit directory run.unexpected ix file).2.1.OnOwnLines := by
        unfold visit
        rw [Run.checkFile_start]
        exact Run.onOwnLines_claims (hix _) file.2
      have hnext : ∀ place, ((ix.replace (placeOf directory file)
          (visit directory run.unexpected ix file).2.1).forFile place).OnOwnLines := by
        intro place
        rw [ProgramIndex.forFile_replace]
        split
        · exact hleft
        · exact hix place
      obtain ⟨last, hlast, hunexpected, hfiles, hevents, hsummary⟩ := ih htallied hnext h
      refine ⟨last, hlast, hunexpected.trans hsame, ?_, hevents, hsummary⟩
      rw [hfiles, hfile, List.append_assoc, List.map_cons, List.singleton_append]

/-! ## The document -/

variable {w : Workspace} {walk : String → Dialect → List CommentGroup}
  {collect : List Path → Collected} {unexpected : Bool} {paths : List Path}

/-- A check that ends has loaded its files, collected diagnostics and made an index of them. -/
theorem exists_checkAll_of_perform
    (h : (perform w (withGroups walk) collect unexpected paths).result = .ok summary) :
    ∃ sources ds ix, load w paths = .ok sources ∧ ProgramIndex.ofList w.directory ds = .ok ix ∧
      perform w (withGroups walk) collect unexpected paths =
        ⟨(checkAll w.directory (opened (collect (sources.map (·.path))) unexpected sources ds) ix
            (withGroups walk sources)).1,
          (checkAll w.directory (opened (collect (sources.map (·.path))) unexpected sources ds) ix
            (withGroups walk sources)).2⟩ := by
  unfold perform at h ⊢
  cases hload : load w paths with
  | error f =>
    rw [hload] at h
    exact nomatch h
  | ok sources =>
    rw [hload] at h
    dsimp only at h ⊢
    cases hcollect : (collect (sources.map (·.path))).result with
    | error f =>
      rw [hcollect] at h
      exact nomatch h
    | ok ds =>
      rw [hcollect] at h
      dsimp only at h ⊢
      cases hindex : ProgramIndex.ofList w.directory ds with
      | error f =>
        rw [hindex] at h
        exact nomatch h
      | ok ix => exact ⟨sources, ds, ix, rfl, hindex, rfl⟩

/-- Each file has its own diagnostics on their own lines before the first one is checked. -/
theorem onOwnLines_ofList {ds : List Diagnostic}
    (h : ProgramIndex.ofList directory ds = .ok ix) (place : Location) :
    (ix.forFile place).OnOwnLines := by
  -- the index of a file is that of the diagnostics which resolve to its place
  obtain ⟨full, hfull, hplaces⟩ := ProgramIndex.ofList_eq_ok (ProgramIndex.allResolve_of_addAll h)
  obtain rfl := Except.ok.inj (h.symm.trans hfull)
  rw [hplaces place]
  exact LineIndex.onOwnLines_ofList _

/-- The sheet of a run that agrees with its entries is complete for their files. -/
theorem complete_ofRun {last : Run} (h : last.Tallied)
    (hfiles : last.entries.map Entry.file = paths.map (·.toString)) :
    (Sheet.ofRun last.unexpected last.events last.summary).Complete last.unexpected paths where
  setting := rfl
  files := hfiles
  addUp s hs := (h.addUp s hs).1
  aborted := h.aborted
  fileCount := h.fileCount
  totals := h.totals
  passed := h.passed_iff

/-- **The document of a check is complete.** Of a check that ends, whatever its files, diagnostics
and comments are, one document is printed, in ASCII, and it is read as a sheet with an entry for
each file in order, which adds up. The entries are what was told when the files ended, and the check
has the status 0 exactly if the sheet says that it has passed. -/
theorem report_complete (w : Workspace) (walk : String → Dialect → List CommentGroup)
    (collect : List Path → Collected) (unexpected single : Bool) (paths : List Path)
    {summary : RunSummary}
    (h : (perform w (withGroups walk) collect unexpected paths).result = .ok summary) :
    let events := (perform w (withGroups walk) collect unexpected paths).run.events
    ∃ (document : String) (sheet : Sheet),
      (Report.Reporter.ofDocument (.bool unexpected) single).report events = document ++ "\n" ∧
      (∀ c ∈ document.toList, c.toNat < 128) ∧
      Json.read document.toList = .ok sheet.toData ∧
      sheet.Complete unexpected paths ∧
      sheet.entries = events.filterMap Entry.ofEvent? ∧
      (sheet.passed = true ↔ summary.exitStatus = 0) := by
  obtain ⟨sources, ds, ix, hload, hindex, hperform⟩ := exists_checkAll_of_perform h
  rw [hperform] at h ⊢
  dsimp only at h ⊢
  have hstart : (opened (collect (sources.map (·.path))) unexpected sources ds).Tallied :=
    Run.tallied_of_empty rfl rfl rfl rfl rfl
  obtain ⟨last, hlast, hsame, hentries, hevents, rfl⟩ :=
    checkAll_tallied hstart (onOwnLines_ofList hindex) h
  obtain rfl : last.unexpected = unexpected := hsame
  have hfiles : last.entries.map Entry.file = paths.map (·.toString) := by
    rw [hentries, ← map_path_of_load hload]
    unfold withGroups
    rw [List.map_map, List.map_map]
    rfl
  obtain ⟨document, hreport, hascii, hread⟩ :=
    Report.Reporter.report_eq last.unexpected single hlast.goesOn last.summary
  refine ⟨document, Sheet.ofRun last.unexpected last.events last.summary, ?_, hascii, hread,
    complete_ofRun hlast hfiles, ?_, ?_⟩
  · rw [hevents]
    exact hreport
  · -- the end of the run makes no entry
    rw [hevents, List.filterMap_append]
    exact (List.append_nil _).symm
  · exact RunSummary.exitStatus_eq_zero_iff.symm

/-- A diagnostic of the second of the two files, which has no annotations. -/
def leftoverDiagnostic : Diagnostic := ⟨some "/b.ts", 3, .text "n", 2, 0, "error"⟩

/-- With two such diagnostics on one line, the document of the check of the two files has an entry
for each of them, adds up their counts and says that the check has not passed. -/
theorem checkPair_document : ∃ (document : String) (sheet : Sheet) (entries : List Data),
    (Report.Reporter.ofDocument (.bool true) false).report
        (checkPair [pairDiagnostic, leftoverDiagnostic, leftoverDiagnostic]
          (pairSources.map (·.path))).run.events = document ++ "\n" ∧
      Json.read document.toList = .ok sheet.toData ∧
      sheet.Complete true (pairSources.map (·.path)) ∧
      sheet.toData = .table [("passed", .bool false), ("report_unexpected_errors", .bool true),
        ("totals", .table [("success_count", .int 1), ("failure_count", .int 0),
          ("leftover_count", .int 1)]),
        ("file_count", .int 2), ("aborted_files", .list []), ("files", .list entries)] := by
  have hresult : (checkPair [pairDiagnostic, leftoverDiagnostic, leftoverDiagnostic]
      (pairSources.map (·.path))).result = .ok ⟨⟨1, 0, 1⟩, 2, [], false⟩ := rfl
  unfold checkPair at hresult ⊢
  obtain ⟨document, sheet, hreport, -, hread, hcomplete, hentries, hstatus⟩ :=
    report_complete pairWorkspace (fun text _ => [⟨0, [text]⟩])
      (given [pairDiagnostic, leftoverDiagnostic, leftoverDiagnostic]) true false _ hresult
  refine ⟨document, sheet, sheet.entries.map Entry.toData, hreport, hread, hcomplete, ?_⟩
  have hpassed : sheet.passed = false := by
    rw [Bool.eq_false_iff, Ne, hstatus]
    decide
  -- the entries are known by what was told, and the other fields by the entries
  have htotals : sheet.totals = ⟨1, 0, 1⟩ := by
    rw [hcomplete.totals, hentries]
    rfl
  have hcount : sheet.fileCount = 2 := by
    rw [hcomplete.fileCount, hentries]
    rfl
  have haborted : sheet.aborted = [] := by
    rw [hcomplete.aborted, hentries]
    rfl
  unfold Sheet.toData
  rw [hpassed, hcomplete.setting, htotals, hcount, haborted]
  rfl

end Check

end ExpectedDiagnostics
