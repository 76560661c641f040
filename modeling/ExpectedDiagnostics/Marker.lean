import ExpectedDiagnostics.Problem
import ExpectedDiagnostics.Text.Blank
import ExpectedDiagnostics.Text.Start

/-!
# Markers

The marker that turns a line comment into an annotation: two slashes, any number of spaces, a tag
character, and the token `ts-expect-error:`. The compiler reads the marker with the tag `@` as a
directive of its own, so a text is retagged to `%` before anyone else sees it (`retag`), and only
the new form is counted (`count`) and looked for in comments (`extract`).

Retagging keeps every other character, so all lines, columns and offsets stay what they were.
-/

namespace ExpectedDiagnostics.Marker

/-- What follows the tag of a marker. -/
def token : List Char :=
  ['t', 's', '-', 'e', 'x', 'p', 'e', 'c', 't', '-', 'e', 'r', 'r', 'o', 'r', ':']

/-- The tag that the compiler takes for its own. -/
def compilerTag : Char := '@'

/-- The tag of an annotation. -/
def tag : Char := '%'

/-! ## Retagging -/

/-- Tells whether a text, given in reverse, ends in two slashes and any number of spaces. -/
def opensMarker (before : List Char) : Bool :=
  match before.dropWhile (· == ' ') with
  | '/' :: '/' :: _ => true
  | _ => false

/-- Retags the markers of a text that comes after another one, which is given in reverse. -/
def retagFrom (before : List Char) : List Char → List Char
  | [] => []
  | c :: cs =>
    let isMarker := c == compilerTag && (Text.after? token cs).isSome && opensMarker before
    (if isMarker then tag else c) :: retagFrom (c :: before) cs

/-- Gives every marker with the compiler's tag the tag of an annotation. -/
def retag (s : String) : String :=
  .ofList (retagFrom [] s.toList)

/-! ## Counting -/

/-- The rest of a text that begins with a marker. -/
def afterMarker? : List Char → Option (List Char)
  | '/' :: '/' :: cs => Text.after? (tag :: token) (cs.dropWhile (· == ' '))
  | _ => none

/-- The number of places of a text at which a marker begins. -/
def countIn : List Char → Nat
  | [] => 0
  | c :: cs => (if (afterMarker? (c :: cs)).isSome then 1 else 0) + countIn cs

/-- The number of markers of a text. -/
def count (s : String) : Nat :=
  countIn s.toList

/-! ## The text of an annotation -/

/-- What follows the marker of the first comment that begins with one, and the comments after it. -/
def firstMarked? : List String → Option (List Char × List String)
  | [] => none
  | part :: parts =>
    match afterMarker? part.toList with
    | some rest => some (rest, parts)
    | none => firstMarked? parts

/-- What follows the two slashes of a line comment. -/
def lineComment? (part : String) : Option (List Char) :=
  Text.after? ['/', '/'] part.toList

/-- The text of the annotation of a comment group: it begins after the first marker and goes on
through the comments that follow, which must be line comments. -/
def extract (parts : List String) : Except Problem (Option String) :=
  match firstMarked? parts with
  | none => .ok none
  | some (rest, following) =>
    match following.mapM lineComment? with
    | none => .error (.malformedComment parts)
    | some texts => .ok (some (.ofList (Text.tidy (rest ++ texts.flatten))))

end ExpectedDiagnostics.Marker
