import ExpectedDiagnostics.Proofs.Counts
import ExpectedDiagnostics.Proofs.Json.RoundTrip
import ExpectedDiagnostics.Report.Reporter

/-!
# What a report as a document says

Nothing is printed before the end of a run, and then one document. Reading it gives what it says of
the run and, file after file, how each one has ended: a sheet (`Sheet`) with its entries (`Entry`).

Main results:

* `isPlain_toData` — a sheet has nothing in it that is not read as it was written.
* `report_eq` — what is printed of a run that is done: one document, in ASCII, which is read as the
  sheet of the run.
-/

namespace ExpectedDiagnostics.Report

namespace Document

/-! ## Entries -/

/-- What a document says of one file: what was told when it was finished, or the error for which it
was given up. -/
inductive Entry
  | finished (summary : FileSummary)
  | aborted (file error : String)

namespace Entry

/-- The file of an entry. -/
def file : Entry → String
  | finished s => s.path
  | aborted file _ => file

/-- Tells whether the file has passed. A file that was given up has not. -/
def passed : Entry → Bool
  | finished s => s.passed
  | aborted .. => false

def isAborted : Entry → Bool
  | finished _ => false
  | aborted .. => true

/-- The counts of a file, if it was finished. -/
def counts? : Entry → Option Counts
  | finished s => some s.counts
  | aborted .. => none

/-- An entry in a document. Lines are numbered from one, and messages stand on one line. The entry
of a file that was given up has only the error. -/
def toData : Entry → Data
  | finished s =>
    .table [("file", .text s.path), ("passed", .bool s.passed),
      ("counts", .table [("success_count", .int s.counts.successes),
        ("failure_count", .int s.counts.failures), ("leftover_count", .int s.counts.leftovers)]),
      ("failures", .list (s.failures.map fun o =>
        .table [("line", .int (o.line + 1)), ("expected", .text o.expected),
          ("actual", .text o.actual)])),
      ("unexpected", .list (s.leftovers.map fun d =>
        .table [("line", .int (d.line + 1)), ("message", .text d.message.flat),
          ("code", .int d.code)]))]
  | aborted file error =>
    .table [("file", .text file), ("passed", .bool false), ("error", .text error)]

/-- The entry for an event, if a file ends with it. -/
def ofEvent? : Event → Option Entry
  | .finished s => some (finished s)
  | .aborted path problem => some (aborted path problem.message)
  | .begun _ | .checked _ | .done _ => none

end Entry

theorem entry?_eq (e : Event) : entry? e = (Entry.ofEvent? e).map Entry.toData := by
  cases e <;> rfl

/-- The entries of a document are those of the files that have ended. -/
theorem filterMap_entries (events : List Event) :
    events.filterMap entry? = (events.filterMap Entry.ofEvent?).map Entry.toData := by
  rw [List.map_filterMap]
  congr 1
  funext e
  exact entry?_eq e

/-! ## Sheets -/

/-- What a document says of a run. -/
structure Sheet where
  passed : Bool
  unexpected : Bool
  totals : Counts
  fileCount : Nat
  aborted : List String
  entries : List Entry

/-- A sheet as a document. -/
def Sheet.toData (s : Sheet) : Data :=
  .table [("passed", .bool s.passed), ("report_unexpected_errors", .bool s.unexpected),
    ("totals", .table [("success_count", .int s.totals.successes),
      ("failure_count", .int s.totals.failures), ("leftover_count", .int s.totals.leftovers)]),
    ("file_count", .int s.fileCount), ("aborted_files", .list (s.aborted.map .text)),
    ("files", .list (s.entries.map Entry.toData))]

/-- The sheet of a run, by what was told before its end and at its end. -/
def Sheet.ofRun (unexpected : Bool) (past : List Event) (s : RunSummary) : Sheet :=
  ⟨s.passed, unexpected, s.totals, s.fileCount, s.aborted, past.filterMap Entry.ofEvent?⟩

theorem ofRun_eq (unexpected : Bool) (past : List Event) (s : RunSummary) :
    ofRun (.bool unexpected) past s = (Sheet.ofRun unexpected past s).toData := by
  unfold ofRun Sheet.ofRun Sheet.toData counts
  rw [filterMap_entries]

theorem isPlain_map {α : Type} {f : α → Data} (h : ∀ a, Json.IsPlain (f a)) (as : List α) :
    Json.IsPlain (.list (as.map f)) :=
  Json.arePlainItems_iff.mpr (List.forall_mem_map.mpr fun a _ => h a)

theorem isPlain_counts (c : Counts) : Json.IsPlain (counts c) := by
  have hnames : ["success_count", "failure_count", "leftover_count"].Nodup := by decide
  exact ⟨hnames, trivial, trivial, trivial, trivial⟩

theorem isPlain_failure (o : Outcome) : Json.IsPlain (failure o) := by
  have hnames : ["line", "expected", "actual"].Nodup := by decide
  exact ⟨hnames, trivial, trivial, trivial, trivial⟩

theorem isPlain_leftover (d : Diagnostic) : Json.IsPlain (leftover d) := by
  have hnames : ["line", "message", "code"].Nodup := by decide
  exact ⟨hnames, trivial, trivial, trivial, trivial⟩

theorem Entry.isPlain_toData (e : Entry) : Json.IsPlain e.toData := by
  cases e with
  | finished s =>
    have hnames : ["file", "passed", "counts", "failures", "unexpected"].Nodup := by decide
    exact ⟨hnames, trivial, trivial, isPlain_counts s.counts, isPlain_map isPlain_failure _,
      isPlain_map isPlain_leftover _, trivial⟩
  | aborted file error =>
    have hnames : ["file", "passed", "error"].Nodup := by decide
    exact ⟨hnames, trivial, trivial, trivial, trivial⟩

theorem Sheet.isPlain_toData (s : Sheet) : Json.IsPlain s.toData := by
  have hnames : ["passed", "report_unexpected_errors", "totals", "file_count", "aborted_files",
      "files"].Nodup := by decide
  have haborted : Json.IsPlain (.list (s.aborted.map .text)) :=
    isPlain_map (f := .text) (fun _ => trivial) _
  exact ⟨hnames, trivial, trivial, isPlain_counts s.totals, trivial, haborted,
    isPlain_map Entry.isPlain_toData _, trivial⟩

end Document

/-! ## What is printed -/

namespace Reporter

/-- The reporter that prints a document. -/
def ofDocument (unexpected : Data) (single : Bool) : Reporter :=
  ⟨.json, unexpected, single⟩

variable {unexpected : Data} {single : Bool} {past events : List Event}

/-- Before the end of the run it prints nothing. -/
theorem printed_of_not_done {e : Event} (he : ∀ s, e ≠ .done s) :
    (ofDocument unexpected single).printed past e = "" := by
  cases e with
  | done s => exact absurd rfl (he s)
  | _ => rfl

/-- At the end it prints what was told on the way. -/
theorem join_printedAll (h : ∀ e ∈ events, ∀ s, e ≠ .done s) (last : RunSummary) :
    String.join ((ofDocument unexpected single).printedAll past (events ++ [.done last])) =
      Json.indented (Document.ofRun unexpected (past ++ events) last) ++ "\n" := by
  -- what was told so far is the past of the next event, which the induction passes along
  induction events generalizing past with
  | nil =>
    rw [List.nil_append, List.append_nil, printedAll, printedAll, String.join_cons,
      String.join_nil, String.append_empty]
    unfold printed lines ofDocument
    rw [List.map_singleton, String.join_cons, String.join_nil, String.append_empty]
  | cons e events ih =>
    obtain ⟨he, hevents⟩ := List.forall_mem_cons.mp h
    have hrest := @ih (past ++ [e]) hevents
    rw [List.append_assoc, List.singleton_append] at hrest
    rw [List.cons_append, printedAll, String.join_cons, printed_of_not_done he, String.empty_append,
      hrest]

/-- **One document is printed** of a run that is done, in ASCII, and it is read as the sheet of the
run. -/
theorem report_eq (unexpected single : Bool) (h : ∀ e ∈ events, ∀ s, e ≠ .done s)
    (last : RunSummary) :
    ∃ document, (ofDocument (.bool unexpected) single).report (events ++ [.done last]) =
        document ++ "\n" ∧
      (∀ c ∈ document.toList, c.toNat < 128) ∧
      Json.read document.toList = .ok (Document.Sheet.ofRun unexpected events last).toData := by
  have hplain := (Document.Sheet.ofRun unexpected events last).isPlain_toData
  refine ⟨Json.indented (Document.Sheet.ofRun unexpected events last).toData, ?_,
    Json.isAscii_indented hplain, Json.read_indented hplain⟩
  unfold report
  rw [join_printedAll h, List.nil_append, Document.ofRun_eq]

end Reporter

end ExpectedDiagnostics.Report
