import ExpectedDiagnostics.Diagnostic

/-!
# Printing listings

The listing of diagnostics: a header line for each one, and one line for every message below its
message, one step further to the right than what it explains.
-/

namespace ExpectedDiagnostics.Listing

mutual

/-- The lines of a message that explains another one, at a depth. -/
def explanation (depth : Nat) : Message → List String
  | .text s => [.ofList (List.replicate (2 * depth) ' ') ++ s]
  | .chain head next =>
    (.ofList (List.replicate (2 * depth) ' ') ++ head) :: explanations (depth + 1) next

/-- The lines of messages that explain the same one. -/
def explanations (depth : Nat) : List Message → List String
  | [] => []
  | m :: ms => explanation depth m ++ explanations depth ms

end

/-- The lines of a message: the text that stands in the header, and the lines below it. -/
def linesOf : Message → String × List String
  | .text s => (s, [])
  | .chain head next => (head, explanations 1 next)

/-- What a header says before the text of the message. Lines and columns are printed from one. -/
def opening (d : Diagnostic) : String :=
  let place := match d.file with
    | some file => file ++ "(" ++ toString (d.line + 1) ++ "," ++ toString (d.column + 1) ++ "): "
    | none => ""
  place ++ d.category ++ " TS" ++ toString d.code ++ ": "

/-- The lines of a diagnostic. -/
def diagnosticLines (d : Diagnostic) : List String :=
  let (text, below) := linesOf d.message
  (opening d ++ text) :: below

/-- The listing of diagnostics. -/
def print (ds : List Diagnostic) : String :=
  String.intercalate "\n" (ds.flatMap diagnosticLines)

end ExpectedDiagnostics.Listing
