import ExpectedDiagnostics.Text.Width

/-!
# Columns

How many columns of a terminal a text takes, and tabs written out as spaces up to the next multiple
of eight columns.

Two characters have a say in the width of others. The joiner makes one picture of the characters
around it, so the one after it takes no column. The picture selector asks for the picture of the
character before it.
-/

namespace ExpectedDiagnostics.Text

/-- The character that joins the one before it and the one after it. -/
def joiner : Char := '\u200d'

/-- The character that asks for the picture of the character before it. -/
def pictureSelector : Char := '\ufe0f'

/-- The columns of a text. The argument before it is the last character that took columns, unless
its picture has been asked for already. -/
def widthAfter (last : Option Char) : List Char → Nat
  | [] => 0
  | c :: cs =>
    if c == joiner then
      match cs with
      | [] => 0
      | _ :: cs => widthAfter last cs
    else if c == pictureSelector then (last.map pictureGain).getD 0 + widthAfter none cs
    else if columns c == 0 then widthAfter last cs
    else columns c + widthAfter (some c) cs

/-- The number of columns of a text. -/
def width (cs : List Char) : Nat :=
  widthAfter none cs

/-- The number of columns between two tab stops. -/
def tabWidth : Nat := 8

/-- The spaces from a column to the next tab stop; none at a tab stop. -/
def spacesToStop (column : Nat) : List Char :=
  List.replicate ((tabWidth - column % tabWidth) % tabWidth) ' '

/-- Writes out the tabs of a line. A tab is a space together with the spaces that are missing to the
next tab stop; this space is measured with what stands between the tab and the one before it, which
begins at a tab stop. The argument before the line is what has been read since that tab, in
reverse. -/
def expandLine (read : List Char) : List Char → List Char
  | [] => read.reverse
  | c :: cs =>
    if c == '\t' then
      let piece := (' ' :: read).reverse
      piece ++ spacesToStop (width piece) ++ expandLine [] cs
    else expandLine (c :: read) cs

/-- Writes out the tabs of lines, each ending in a line feed. The argument before the text is what
has been read of the line, in reverse. -/
def expandLines (read : List Char) : List Char → List Char
  | [] => expandLine [] read.reverse
  | c :: cs =>
    if c == '\n' then expandLine [] read.reverse ++ '\n' :: expandLines [] cs
    else expandLines (c :: read) cs

/-- Writes out the tabs of a text. -/
def expandTabs (cs : List Char) : List Char :=
  expandLines [] cs

end ExpectedDiagnostics.Text
