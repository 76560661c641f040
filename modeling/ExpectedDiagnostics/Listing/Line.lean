import ExpectedDiagnostics.Text.Blank
import ExpectedDiagnostics.Text.Digit
import ExpectedDiagnostics.Text.Start

/-!
# Lines of a listing

A listing is what the compiler prints without colours: a header line for every diagnostic, and
under it, further in, the lines that explain it. Each line is told apart on its own.
-/

namespace ExpectedDiagnostics.Listing

/-- The first line of a diagnostic. The place has the file, line and column as they are printed,
counted from one. -/
structure Header where
  place : Option (List Char × Nat × Nat)
  category : String
  code : Nat
  text : List Char
  deriving DecidableEq, Repr

/-- A line of a listing. -/
inductive Line
  /-- The first line of a diagnostic. -/
  | header (h : Header)
  /-- A line that explains an earlier one; its depth is the number of its steps to the right. -/
  | continuation (depth : Nat) (text : List Char)
  /-- Any other line. -/
  | other
  deriving DecidableEq, Repr

/-- What a diagnostic can be. -/
def categories : List String :=
  ["error", "warning", "message", "suggestion"]

/-- The number at the front of a text, and the rest. -/
def number? (cs : List Char) : Option (Nat × List Char) :=
  match cs.takeWhile Text.isDigit with
  | [] => none
  | ds => some (Text.number ds, cs.dropWhile Text.isDigit)

/-- Reads a category, the code and the text of the message. -/
def statement? (cs : List Char) : Option (String × Nat × List Char) :=
  categories.findSome? fun category => do
    let cs ← Text.after? category.toList cs
    let cs ← Text.after? [' ', 'T', 'S'] cs
    let (code, cs) ← number? cs
    let cs ← Text.after? [':', ' '] cs
    return (category, code, cs)

/-- Reads a line and a column in parentheses, and what follows them. -/
def position? (cs : List Char) : Option (Nat × Nat × List Char) := do
  let cs ← Text.after? ['('] cs
  let (line, cs) ← number? cs
  let cs ← Text.after? [','] cs
  let (column, cs) ← number? cs
  let cs ← Text.after? [')', ':', ' '] cs
  return (line, column, cs)

/-- Reads what follows the name of a file in a header. The name is given in reverse. -/
def placed? (reversed cs : List Char) : Option Header := do
  let (line, column, cs) ← position? cs
  let (category, code, text) ← statement? cs
  return ⟨some (reversed.reverse, line, column), category, code, text⟩

/-- Reads the header of a diagnostic in a file. The name of the file is as short as possible, but
not empty; the characters read before are given in reverse. -/
def fileHeader? (before : List Char) : List Char → Option Header
  | [] => none
  | c :: cs =>
    match (if before.isEmpty then none else placed? before (c :: cs)) with
    | some h => some h
    | none => fileHeader? (c :: before) cs

/-- Reads the header of a diagnostic without a file. -/
def globalHeader? (cs : List Char) : Option Header := do
  let (category, code, text) ← statement? cs
  return ⟨none, category, code, text⟩

/-- The number of spaces that make one step to the right. -/
def stepWidth : Nat := 2

/-- The depth of a line by the number of spaces at its front; a line under a header has at least
depth one. -/
def depthOf (spaces : Nat) : Nat :=
  max 1 (spaces / stepWidth)

/-- Reads a line that explains another one: at least one step to the right, and not blank. -/
def continuation? (cs : List Char) : Option Line :=
  let spaces := (cs.takeWhile (· == ' ')).length
  match Text.strip cs with
  | [] => none
  | text => if stepWidth ≤ spaces then some (.continuation (depthOf spaces) text) else none

/-- Tells what a line is. -/
def Line.ofText (cs : List Char) : Line :=
  match fileHeader? [] cs with
  | some h => .header h
  | none =>
    match globalHeader? cs with
    | some h => .header h
    | none => (continuation? cs).getD .other

end ExpectedDiagnostics.Listing
