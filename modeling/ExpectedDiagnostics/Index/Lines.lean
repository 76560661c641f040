import ExpectedDiagnostics.Diagnostic

/-!
# The diagnostics of a file, by line

A diagnostic that one annotation has claimed must never satisfy another one, so the diagnostics of
a line are taken, not read: taking a line forgets them. What no annotation has taken in the end is
left over.

The index keeps the diagnostics in the order in which they were added, each with its line.
-/

namespace ExpectedDiagnostics

/-- The diagnostics of one file that nobody has taken yet, each with its line, the first one added
first. -/
structure LineIndex where
  entries : List (Int × Diagnostic)

namespace LineIndex

/-- An index without diagnostics. -/
def empty : LineIndex := ⟨[]⟩

/-- Adds a diagnostic to a line. -/
def add (ix : LineIndex) (line : Int) (d : Diagnostic) : LineIndex :=
  ⟨ix.entries ++ [(line, d)]⟩

/-- The index of diagnostics on their own lines. -/
def ofList (ds : List Diagnostic) : LineIndex :=
  ⟨ds.map fun d => (d.line, d)⟩

/-- The diagnostics of a line. -/
def on (ix : LineIndex) (line : Int) : List Diagnostic :=
  (ix.entries.filter (·.1 == line)).map (·.2)

/-- Forgets the diagnostics of a line. -/
def drop (ix : LineIndex) (line : Int) : LineIndex :=
  ⟨ix.entries.filter (·.1 != line)⟩

/-- Takes the diagnostics of a line. -/
def take (ix : LineIndex) (line : Int) : List Diagnostic × LineIndex :=
  (ix.on line, ix.drop line)

/-- The lines that have diagnostics, each one once. -/
def lines (ix : LineIndex) : List Int :=
  (ix.entries.map (·.1)).eraseDups

/-- The number of lines that have diagnostics. -/
def leftoverCount (ix : LineIndex) : Nat :=
  ix.lines.length

/-- The diagnostics that nobody has taken, by line; those of one line stay as they were added. -/
def leftovers (ix : LineIndex) : List Diagnostic :=
  (ix.entries.mergeSort fun a b => decide (a.1 ≤ b.1)).map (·.2)

/-- The number of diagnostics that nobody has taken. -/
def size (ix : LineIndex) : Nat :=
  ix.entries.length

end LineIndex

end ExpectedDiagnostics
