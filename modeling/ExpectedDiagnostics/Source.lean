import ExpectedDiagnostics.Dialect
import ExpectedDiagnostics.Marker
import ExpectedDiagnostics.Workspace

/-!
# Source files

A source file as all parts of the program see it: its markers already have the tag of an
annotation.
-/

namespace ExpectedDiagnostics

/-- A source file: its path and its retagged text. -/
structure Source where
  path : Path
  text : String
  deriving DecidableEq, Repr

namespace Source

/-- The dialect of a source file. -/
def dialect (s : Source) : Dialect :=
  .ofSuffix s.path.suffix

/-- The source file with a text that has not been retagged. -/
def ofText (path : Path) (text : String) : Source :=
  ⟨path, Marker.retag text⟩

/-- Reads a source file. A file that cannot be read is an invalid path. -/
def load (w : Workspace) (path : Path) : Except Failure Source :=
  match w.readText path with
  | .error (.unresolved f) => .error (.unresolved f)
  | .error f => .error (.problem (.invalidPath path f.message))
  | .ok text => .ok (ofText path (.ofList text))

end Source

end ExpectedDiagnostics
