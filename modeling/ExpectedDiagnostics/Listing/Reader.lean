import ExpectedDiagnostics.Diagnostic
import ExpectedDiagnostics.Listing.Line
import ExpectedDiagnostics.Path
import ExpectedDiagnostics.Text.Lines

/-!
# Reading listings

A diagnostic is a header line together with the continuation lines right below it. Each
continuation line explains the last line above it that is less far to the right. Lines that belong
to no diagnostic are left out.
-/

namespace ExpectedDiagnostics.Listing

/-- The lines right below a header that explain it, with their depths. -/
def continuations : List Line → List (Nat × List Char)
  | .continuation depth text :: lines => (depth, text) :: continuations lines
  | _ => []

/-- The messages that lines at their depths make: the lines below one that are deeper explain
it. -/
def forest : List (Nat × List Char) → List Message
  | [] => []
  | (depth, text) :: lines =>
    .chain (.ofList text) (forest (lines.takeWhile (depth < ·.1))) ::
      forest (lines.dropWhile (depth < ·.1))
termination_by lines => lines.length
decreasing_by
  · exact Nat.lt_succ_of_le (List.takeWhile_sublist _).length_le
  · exact Nat.lt_succ_of_le (List.dropWhile_sublist _).length_le

/-- The message of a diagnostic: a plain text if nothing explains it. -/
def messageOf (text : List Char) : List Message → Message
  | [] => .text (.ofList text)
  | next => .chain (.ofList text) next

/-- The diagnostic of a header and what explains it; the file is seen from a directory. -/
def Header.toDiagnostic (h : Header) (directory : Location) (next : List Message) :
    Except Path.Fault Diagnostic :=
  let message := messageOf h.text next
  match h.place with
  | some (file, line, column) => do
    let place ← (Path.ofString (.ofList file)).resolve directory
    return ⟨some place.toString, line - 1, message, h.code, column - 1, h.category⟩
  | none => .ok ⟨none, 0, message, h.code, 0, h.category⟩

/-- The diagnostics that lines tell of. -/
def diagnosticsOf (directory : Location) : List Line → Except Path.Fault (List Diagnostic)
  | [] => .ok []
  | .header h :: lines => do
    let d ← h.toDiagnostic directory (forest (continuations lines))
    let ds ← diagnosticsOf directory lines
    return d :: ds
  | _ :: lines => diagnosticsOf directory lines

/-- The diagnostics of a listing; files are seen from a directory. -/
def read (directory : Location) (text : List Char) : Except Path.Fault (List Diagnostic) :=
  diagnosticsOf directory ((Text.splitLines text).map Line.ofText)

end ExpectedDiagnostics.Listing
