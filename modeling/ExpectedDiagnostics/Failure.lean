import ExpectedDiagnostics.FileTree
import ExpectedDiagnostics.Problem
import ExpectedDiagnostics.ShellWords
import ExpectedDiagnostics.Utf8

/-!
# Failures

Everything that can end an operation before its result: a problem that the program reports in its
own words, or one that shows up where it arises, in a file, a text, a command line, or in the order
of the calls.
-/

namespace ExpectedDiagnostics

/-- What can end an operation. -/
inductive Failure
  /-- A problem that the program reports in its own words. -/
  | problem (p : Problem)
  /-- A path that does not lead to what was asked for. -/
  | file (f : FileTree.Fault)
  /-- A path that cannot be resolved. -/
  | unresolved (f : Path.Fault)
  /-- A path on the way of which a link leads back to itself. -/
  | linkLoop (path : Path)
  /-- Octets that are no text. -/
  | encoding (f : Utf8.Fault)
  /-- A text that is no command line. -/
  | command (f : ShellWords.Fault)
  /-- A path without a last name, where a name is needed. -/
  | nameless (path : Path)
  /-- A value that is no path. -/
  | noPath (value : Data)
  /-- A value that JSON has no form for. -/
  | unwritable (value : Data)
  /-- A value that cannot tell which directories are left out. -/
  | exclusions (value : Data)
  /-- A call that needs an open file while none is open. -/
  | noFile
  /-- A call that needs all files to be finished while one is open. -/
  | unfinished (path : Path)

/-- The wording of a failure. -/
def Failure.message : Failure → String
  | problem p => p.message
  | file f => f.message
  | unresolved f => f.message
  | linkLoop path => "Symlink loop from " ++ Text.quote path.toString
  | encoding f => f.message
  | command f => f.message
  | nameless path => "PosixPath(" ++ Text.quote path.toString ++ ") has an empty name"
  | noPath value => "expected str, bytes or os.PathLike object, not " ++ value.kindName
  | unwritable value =>
    -- the first value that has no form in JSON is what the writing stops at
    "Object of type " ++ (value.moments.head?.map Data.momentKindName).getD value.kindName ++
      " is not JSON serializable"
  | exclusions value => "argument of type '" ++ value.kindName ++ "' is not iterable"
  | noFile => "No file is being checked"
  | unfinished path => "File " ++ path.toString ++ " was not finished"

/-- The status that a failure ends the program with. -/
def Failure.exitStatus : Failure → Nat
  | problem p => p.exitStatus
  | _ => 1

end ExpectedDiagnostics
