import ExpectedDiagnostics.Data
import ExpectedDiagnostics.Event

/-!
# Reports as documents

A single JSON document at the end of the run, with an entry for every file. The entry of a file
that was given up has only the error.
-/

namespace ExpectedDiagnostics.Report.Document

/-- The field of counts. -/
def counts (c : Counts) : Data :=
  .table [("success_count", .int c.successes), ("failure_count", .int c.failures),
    ("leftover_count", .int c.leftovers)]

/-- The field of a failure. Lines are numbered from one. -/
def failure (o : Outcome) : Data :=
  .table [("line", .int (o.line + 1)), ("expected", .text o.expected), ("actual", .text o.actual)]

/-- The field of a diagnostic that is left over. -/
def leftover (d : Diagnostic) : Data :=
  .table [("line", .int (d.line + 1)), ("message", .text d.flat), ("code", .int d.code)]

/-- The entry of a file, if the event is its end. -/
def entry? : Event → Option Data
  | .finished s =>
    some (.table [("file", .text s.path), ("passed", .bool s.passed), ("counts", counts s.counts),
      ("failures", .list (s.failures.map failure)),
      ("unexpected", .list (s.leftovers.map leftover))])
  | .aborted path problem =>
    some (.table [("file", .text path), ("passed", .bool false),
      ("error", .text problem.message)])
  | .begun _ | .checked _ | .done _ => none

/-- The document of a run, after its events. The setting about unexpected diagnostics is repeated
as it was given. -/
def ofRun (unexpected : Data) (past : List Event) (s : RunSummary) : Data :=
  .table [("passed", .bool s.passed), ("report_unexpected_errors", unexpected),
    ("totals", counts s.totals), ("file_count", .int s.fileCount),
    ("aborted_files", .list (s.aborted.map .text)), ("files", .list (past.filterMap entry?))]

end ExpectedDiagnostics.Report.Document
