import ExpectedDiagnostics.Log
import ExpectedDiagnostics.Staging
import ExpectedDiagnostics.Text.LetterCase
import ExpectedDiagnostics.Workspace

/-!
# Discovery

The files that path arguments stand for. A file stands for itself. A directory stands for the files
anywhere below it that have one of the suffixes, in the order of their paths; files in directories
that are left out, and copies that staging has left behind, are passed over.

Whatever lies below a directory is looked at by its path, which may get too long for that. The
directories are listed before any of the files is picked.
-/

namespace ExpectedDiagnostics

/-! ## Directories that are left out -/

/-- How directories are left out: by their names, or by all names within a text. -/
inductive Exclusions
  | named (names : List String)
  | within (text : String)
  | unusable (value : Data)

namespace Exclusions

/-- Tells whether a text goes on with another text somewhere. -/
def occurs (part : List Char) : List Char → Bool
  | [] => part.isEmpty
  | c :: cs => part.isPrefixOf (c :: cs) || occurs part cs

/-- The exclusions that a value stands for: the texts of a list, the names of the fields of a table,
or what is within a text. -/
def ofData : Data → Exclusions
  | .list items =>
    .named (items.filterMap fun item =>
      match item with
      | .text s => some s
      | _ => none)
  | .table fields => .named (fields.map (·.1))
  | .text s => .within s
  | value => .unusable value

/-- Tells whether one of these directories is left out. -/
def excludesAny (e : Exclusions) (directories : List String) : Except Failure Bool :=
  match e with
  | named names => .ok (directories.any names.contains)
  | within text => .ok (directories.any fun d => occurs d.toList text.toList)
  | unusable value => if directories.isEmpty then .ok false else .error (.exclusions value)

end Exclusions

/-- Which files are looked for in directories: those with one of the suffixes, in either case of
letters, that are not in a directory that is left out. -/
structure Selection where
  suffixes : List String
  exclusions : Exclusions

/-- What path arguments stand for: the files up to the first failure, the log, and the failure. -/
structure Discovery where
  files : List Path
  log : List LogRecord
  failure : Option Failure

namespace Selection

/-- Tells whether a file has one of the suffixes. -/
def hasSuffix (s : Selection) (p : Path) : Bool :=
  (s.suffixes.map Text.lower).contains (Text.lower p.suffix)

/-- Tells whether a file is a copy that staging has made. -/
def isCopy (p : Path) : Bool :=
  ("." ++ Staging.stem).toList.isSuffixOf p.stem.toList

/-- The failure to look at a path, if the path is too long. -/
def lengthFailure? (p : Path) : Option Failure :=
  if FileTree.pathLimit < p.toString.utf8ByteSize then some (.file ⟨.tooLong, p⟩) else none

/-- The files that are picked among those below a directory, each told by the names on the way to
it. -/
def pick (s : Selection) (directory : Path) : List (List String) → List Path × Option Failure
  | [] => ([], none)
  | names :: rest =>
    let file := directory.append names
    match lengthFailure? file with
    | some f => ([], some f)
    | none =>
      if !s.hasSuffix file then s.pick directory rest
      else
        match s.exclusions.excludesAny names.dropLast with
        | .error f => ([], some f)
        | .ok excluded =>
          let (files, failure) := s.pick directory rest
          (if excluded || isCopy file then files else file :: files, failure)

/-- What the log says of a directory. -/
def countRecord (directory : Path) (files : List Path) : LogRecord :=
  ⟨.debug, Log.discoveryPart,
    directory.toString ++ ": " ++ toString files.length ++ " file(s)"⟩

/-- What a path argument stands for. -/
def expandOne (s : Selection) (w : Workspace) (p : Path) : Discovery :=
  match w.find? p with
  | .ok (some .directory) =>
    let folders := w.tree.foldersBelow (w.place p)
    match folders.findSome? fun names => lengthFailure? (p.append names) with
    | some f => ⟨[], [], some f⟩
    | none =>
      let (files, failure) := s.pick p (w.tree.below (w.place p))
      ⟨files, if failure.isNone then [countRecord p files] else [], failure⟩
  | .ok (some (.file _)) => ⟨[p], [], none⟩
  | .ok none => ⟨[], [], some (.problem (.invalidPath p "no such file or directory"))⟩
  | .error f => ⟨[], [], some f⟩

/-- What path arguments stand for, one after the other. -/
def expand (s : Selection) (w : Workspace) : List Path → Discovery
  | [] => ⟨[], [], none⟩
  | p :: paths =>
    let first := s.expandOne w p
    if first.failure.isSome then first
    else
      let rest := s.expand w paths
      ⟨first.files ++ rest.files, first.log ++ rest.log, rest.failure⟩

end Selection

end ExpectedDiagnostics
