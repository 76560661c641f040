import ExpectedDiagnostics.CommentGroup
import ExpectedDiagnostics.Utf8

/-!
# Syntax trees

The comment groups of a text by its syntax tree. A tree gives every node its range of octets and
the rows on which the range begins and ends; comments are nodes of their own, which may stand
anywhere.

The leading comments of a node lie between the last token that ends before it and the node itself,
less those that start on the row on which that token ends: they belong to what is before them. A
group of comments is told once, for the first node that it leads, and nodes are visited from the
outside to the inside and from left to right.
-/

namespace ExpectedDiagnostics

/-- A range of octets, and the rows on which it begins and ends. -/
structure Span where
  start : Nat
  stop : Nat
  startRow : Nat
  stopRow : Nat
  deriving DecidableEq, Repr

/-- A node of a syntax tree: its kind, its range, and the nodes inside it. -/
inductive SyntaxTree
  | node (kind : String) (span : Span) (children : List SyntaxTree)
  deriving Repr

namespace SyntaxTree

instance : Inhabited SyntaxTree := ⟨node "" ⟨0, 0, 0, 0⟩ []⟩

/-- The kind of comments. -/
def commentKind : String := "comment"

/-- The kind of the root of a whole text. -/
def rootKind : String := "program"

/-! ## What a tree holds -/

mutual

/-- The ends of the tokens of a tree, each with its row. A token is a node without nodes inside it
that is no comment and not empty. -/
def tokenEnds : SyntaxTree → List (Nat × Nat)
  | node kind span children =>
    if kind == commentKind then []
    else if children.isEmpty then
      if span.start < span.stop then [(span.stop, span.stopRow)] else []
    else tokenEndsOf children

/-- The ends of the tokens of several trees. -/
def tokenEndsOf : List SyntaxTree → List (Nat × Nat)
  | [] => []
  | t :: ts => tokenEnds t ++ tokenEndsOf ts

end

mutual

/-- The comments of a tree, from right to left. What is inside a comment does not count. -/
def comments : SyntaxTree → List Span
  | node kind span children => if kind == commentKind then [span] else commentsOf children

/-- The comments of several trees, from right to left. -/
def commentsOf : List SyntaxTree → List Span
  | [] => []
  | t :: ts => commentsOf ts ++ comments t

end

mutual

/-- The nodes of a tree that can lead comments, from the outside to the inside and from left to
right: all but the root and the comments. -/
def leaders : SyntaxTree → List Span
  | node kind span children =>
    if kind == commentKind then []
    else if kind == rootKind then leadersOf children
    else span :: leadersOf children

/-- The nodes of several trees that can lead comments. -/
def leadersOf : List SyntaxTree → List Span
  | [] => []
  | t :: ts => leaders t ++ leadersOf ts

end

/-! ## Leading comments -/

/-- The tokens and comments of a tree in order: the ends of tokens, the nearest to the front
first, and the comments by where they start. -/
structure Table where
  ends : List (Nat × Nat)
  comments : List Span

/-- The order of token ends: by place, then by row. -/
def endLe (a b : Nat × Nat) : Bool :=
  a.1 < b.1 || (a.1 == b.1 && a.2 ≤ b.2)

/-- The table of a tree. Comments that start at the same place stay as the tree is read from right
to left. -/
def table (t : SyntaxTree) : Table :=
  ⟨t.tokenEnds.mergeSort endLe, t.comments.mergeSort fun a b => decide (a.start ≤ b.start)⟩

/-- The end and the row of the last token that ends at or before a place. -/
def Table.lastEnd? (t : Table) (place : Nat) : Option (Nat × Nat) :=
  (t.ends.takeWhile fun e => decide (e.1 ≤ place)).getLast?

/-- The leading comments of what starts at a place. -/
def Table.leading (t : Table) (place : Nat) : List Span :=
  let last := t.lastEnd? place
  let border := (last.map Prod.fst).getD 0
  let between := (t.comments.dropWhile fun c => decide (c.start < border)).takeWhile
    fun c => decide (c.start < place)
  between.filter fun c => decide (c.stop ≤ place) && some c.startRow != last.map Prod.snd

/-! ## Comment groups -/

/-- The text of a range of octets. -/
def sliceText (octets : List UInt8) (span : Span) : Except Utf8.Fault String := do
  return .ofList (← Utf8.decode ((octets.drop span.start).take (span.stop - span.start)))

/-- The comment groups that nodes lead, each one once; a group is known by where its first comment
starts. -/
def groupsFrom (octets : List UInt8) (t : Table) (seen : List Nat) :
    List Span → Except Utf8.Fault (List CommentGroup)
  | [] => .ok []
  | span :: spans =>
    match t.leading span.start with
    | [] => groupsFrom octets t seen spans
    | first :: others =>
      if seen.contains first.start then groupsFrom octets t seen spans
      else do
        let parts ← (first :: others).mapM (sliceText octets)
        let groups ← groupsFrom octets t (first.start :: seen) spans
        return ⟨span.startRow, parts⟩ :: groups

/-- The comment groups of a text by its syntax tree. -/
def groups (text : String) (t : SyntaxTree) : Except Utf8.Fault (List CommentGroup) :=
  groupsFrom (Utf8.encode text.toList) t.table [] t.leaders

end SyntaxTree

end ExpectedDiagnostics
