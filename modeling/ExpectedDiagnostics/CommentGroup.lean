import ExpectedDiagnostics.Expectation
import ExpectedDiagnostics.Marker

/-!
# Comment groups

The comments in front of a token, and the annotations that the comment groups of a file carry. The
annotations are read in order; the first group that is blank or malformed ends the reading.
-/

namespace ExpectedDiagnostics

/-- The comments in front of a token, and the line on which the token starts. -/
structure CommentGroup where
  line : Int
  parts : List String
  deriving DecidableEq, Repr

/-- An annotation: what it expects, and of which line. -/
structure LineExpectation where
  line : Int
  expectation : Expectation
  deriving DecidableEq

namespace CommentGroup

/-- The annotation of a comment group, if it has one. -/
def read (g : CommentGroup) : Except Problem (Option LineExpectation) :=
  match Marker.extract g.parts with
  | .error p => .error p
  | .ok none => .ok none
  | .ok (some text) =>
    match Expectation.parse text with
    | .ok e => .ok (some ⟨g.line, e⟩)
    | .error (.blankExpectation text reason _) =>
      .error (.blankExpectation text reason (some g.line))
    | .error p => .error p

/-- The annotations of comment groups up to the first group that cannot be read, and what is wrong
with that one. -/
def readAll : List CommentGroup → List LineExpectation × Option Problem
  | [] => ([], none)
  | g :: gs =>
    match g.read with
    | .error p => ([], some p)
    | .ok none => readAll gs
    | .ok (some a) =>
      let (rest, problem) := readAll gs
      (a :: rest, problem)

end CommentGroup

end ExpectedDiagnostics
