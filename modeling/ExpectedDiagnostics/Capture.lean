import ExpectedDiagnostics.Json.Reader
import ExpectedDiagnostics.Listing.Reader
import ExpectedDiagnostics.Record
import ExpectedDiagnostics.Workspace

/-!
# Captured diagnostics

Diagnostics that were written down earlier: a list of records in a JSON document, or the listing
that the compiler printed. The path `-` stands for the standard input. Whatever the form, the
diagnostics come out in order and without repetitions.
-/

namespace ExpectedDiagnostics

/-- The forms in which diagnostics are written down. -/
inductive CaptureForm
  | records
  | listing
  deriving DecidableEq, Repr

/-- Diagnostics that were written down: the form, where they are, and the directory from which
their files are seen, if it is not the one in which the program runs. -/
structure Capture where
  form : CaptureForm
  path : Path
  base : Option Path
  deriving DecidableEq, Repr

namespace Capture

/-- The text of a capture. A file that cannot be opened is a problem of the capture's format. -/
def text (c : Capture) (w : Workspace) : Except Failure (List Char) :=
  if c.path.toString == "-" then .ok w.input.toList
  else
    match w.readText c.path with
    | .error (.file f) => .error (.problem (.diagnosticsFormat c.path f.message))
    | result => result

/-- Reads records, the first of which has this number. The fault comes with the number of its
record. -/
def readRecords (directory : Location) (number : Nat) :
    List Data → Except (Nat × Record.Fault) (List (Diagnostic Text.Torn))
  | [] => .ok []
  | item :: items =>
    match Record.readTorn directory item with
    | .error f => .error (number, f)
    | .ok d => do
      let ds ← readRecords directory (number + 1) items
      return d :: ds

/-- The diagnostics of a JSON document, or what is wrong with it. -/
def ofRecords (directory : Location) (text : List Char) :
    Except String (List (Diagnostic Text.Torn)) :=
  match Json.read text with
  | .error f => .error ("invalid JSON: " ++ f.message text)
  | .ok (.list items) =>
    match readRecords directory 0 items with
    | .error (number, f) => .error ("entry " ++ toString number ++ ": " ++ f.message)
    | .ok ds => .ok ds
  | .ok _ => .error "expected a JSON array of diagnostics"

/-- The diagnostics that the text of a capture tells of, in order and without repetitions. Those of
records are shown once this is done. -/
def diagnosticsOf (c : Capture) (directory : Location) (text : List Char) :
    Except Failure (List Diagnostic) :=
  match c.form with
  | .records => do
    let ds ← (ofRecords directory text).mapError fun reason =>
      .problem (.diagnosticsFormat c.path reason)
    return (Diagnostic.tidy ds).map Diagnostic.shown
  | .listing => do
    let ds ← (Listing.read directory text).mapError .unresolved
    return Diagnostic.tidy ds

/-- The diagnostics of a capture. -/
def collect (c : Capture) (w : Workspace) : Except Failure (List Diagnostic) := do
  let text ← c.text w
  c.diagnosticsOf ((c.base.map w.place).getD w.directory) text

end Capture

end ExpectedDiagnostics
