import ExpectedDiagnostics.Text.LetterCase
import ExpectedDiagnostics.Text.Quoted

/-!
# Dialects

The two dialects of TypeScript: the plain one, and the one in which expressions may be written as
markup. The suffix of a file tells which one it is written in.
-/

namespace ExpectedDiagnostics

/-- The dialects of TypeScript. -/
inductive Dialect
  | plain
  | markup
  deriving DecidableEq, Repr

namespace Dialect

/-- All dialects. -/
def all : List Dialect :=
  [plain, markup]

/-- The name of a dialect. -/
def name : Dialect → String
  | plain => "typescript"
  | markup => "tsx"

/-- The dialect with a name. -/
def ofName? (name : String) : Option Dialect :=
  all.find? (·.name == name)

/-- What is said of a name that no dialect has. -/
def unknownText (name : String) : String :=
  "Unknown dialect: " ++ Text.quote name ++ ". Choose from: " ++
    String.intercalate ", " (all.map Dialect.name)

/-- The suffixes of files that are written with markup. -/
def markupSuffixes : List String :=
  [".tsx", ".jsx"]

/-- The dialect of the files with a suffix; upper and lower case make no difference. -/
def ofSuffix (suffix : String) : Dialect :=
  if markupSuffixes.contains (Text.lower suffix) then markup else plain

end Dialect

end ExpectedDiagnostics
