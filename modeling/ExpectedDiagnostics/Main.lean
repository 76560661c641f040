import ExpectedDiagnostics.CommandLine

/-!
# The program

Reads what a call needs from the system, and writes what comes of it. Of the file system it reads
the two settings files and everything that the command line names.

The program starts no other program. A call that would need the compiler ends with the message that
it was not found; diagnostics come from a JSON document or a captured listing.
-/

namespace ExpectedDiagnostics.CommandLine

/-- Adds a directory, and all directories on the way to it, to a file tree. -/
def withDirectory (t : FileTree) (place : Location) : FileTree :=
  let places := (List.range (place.names.length + 1)).map fun n => ⟨place.names.take n⟩
  { t with directories := t.directories ++ places.filter (!t.directories.contains ·) }

/-- Adds what is at a place to a file tree, and what is on the way to it: a file, or a directory
with everything below it. -/
partial def withPlace (t : FileTree) (place : Location) : IO FileTree := do
  let path := (← IO.currentDir) / place.toString
  if ← path.isDir then
    let mut t := withDirectory t place
    for entry in ← path.readDir do
      t ← withPlace t (place.step entry.fileName)
    return t
  else if ← path.pathExists then
    let content ← IO.FS.readBinFile path
    return (withDirectory t place.parent).write place content.toList
  else if ← ((← IO.currentDir) / place.parent.toString).isDir then
    return withDirectory t place.parent
  else if place == .root then
    return t
  else
    withPlace t place.parent

/-- The texts of a command line that may be paths. -/
def pathTexts (arguments : List Argument) : List String :=
  arguments.filterMap fun a =>
    match a with
    | .path text => some text
    | .parameter _ value => some value
    | .switch _ => none

/-- The variables that settings are read from. -/
def readEnvironment : IO (List (String × String)) := do
  let mut found := []
  for s in Setting.all do
    if let some value ← IO.getEnv s.variableName then
      found := found ++ [(s.variableName, value)]
  return found

/-- Reads what a call needs to know. -/
def readInvocation (words : List String) : IO Invocation := do
  let directory := (Path.ofString (← IO.currentDir).toString).place .root
  let home := (Path.ofString ((← IO.getEnv "HOME").getD "/")).place .root
  let arguments := (readWords words).toOption.getD []
  let mut w : Workspace := ⟨withDirectory ⟨[], []⟩ directory, directory, home, ""⟩
  let paths := [Settings.homeFile w, Settings.projectFile w] ++
    (pathTexts arguments).map Path.ofString
  for path in paths do
    w := { w with tree := ← withPlace w.tree (w.place path) }
  if valueOf? arguments .listing == some "-" then
    w := { w with input := ← (← IO.getStdin).readToEnd }
  return ⟨w, ← readEnvironment, words⟩

/-- Writes what comes of a call. -/
def write (t : Transcript) : IO UInt32 := do
  IO.print t.output
  for line in t.errors do
    IO.eprintln line
  if let some (place, lines) := t.logFile then
    let handle ← IO.FS.Handle.mk place.toString .append
    for line in lines do
      handle.putStrLn line
  match t.ending with
  | .status n => return n.toUInt32
  | .misuse m =>
    IO.eprintln ("Error: " ++ m.message)
    return 2

end ExpectedDiagnostics.CommandLine

/-- The program. -/
def main (words : List String) : IO UInt32 := do
  let i ← ExpectedDiagnostics.CommandLine.readInvocation words
  ExpectedDiagnostics.CommandLine.write
    (ExpectedDiagnostics.CommandLine.run (fun _ => .notFound) i)
