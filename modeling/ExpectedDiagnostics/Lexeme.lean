import ExpectedDiagnostics.CommentGroup

/-!
# Lexemes

A program text as its tokens and comments in order, and the comment groups that lie between the
tokens. A comment that starts on the row on which the last token ends belongs to what is before it
and is in no group; neither are the comments after the last token.
-/

namespace ExpectedDiagnostics

/-- A token, with the rows on which it begins and ends, or a comment, with its text and the row on
which it begins. -/
inductive Lexeme
  | token (startRow stopRow : Nat)
  | comment (text : String) (startRow : Nat)
  deriving DecidableEq, Repr

namespace Lexeme

/-- The comment groups in front of tokens, where the last token ended on a row and these comments
have been met since. -/
def groupsFrom (lastRow : Option Nat) (waiting : List String) : List Lexeme → List CommentGroup
  | [] => []
  | comment text row :: lexemes =>
    if lastRow == some row then groupsFrom lastRow waiting lexemes
    else groupsFrom lastRow (waiting ++ [text]) lexemes
  | token startRow stopRow :: lexemes =>
    let rest := groupsFrom (some stopRow) [] lexemes
    if waiting.isEmpty then rest else ⟨startRow, waiting⟩ :: rest

/-- The comment groups of a program text. -/
def groups (lexemes : List Lexeme) : List CommentGroup :=
  groupsFrom none [] lexemes

end Lexeme

end ExpectedDiagnostics
