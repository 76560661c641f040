import ExpectedDiagnostics.Text.Blank
import ExpectedDiagnostics.Text.Quoted

/-!
# Torn texts

A document can write a UTF-16 unit that is one half of a pair and leave out the other half. Such a
half is no character. A text with one is torn: it is kept as pieces, each of which is a character or
a half. What is done to texts on the way is done piece by piece: they are ordered by their numbers,
and runs of blanks are written as one space.
-/

namespace ExpectedDiagnostics.Text

/-- A piece of a torn text: a character, or one unit of a pair without the other one. -/
inductive Piece
  | char (c : Char)
  | half (unit : Nat)
  deriving DecidableEq, Repr

/-- A text that may be torn, piece by piece. -/
abbrev Torn := List Piece

namespace Piece

/-- The number of a piece: that of the character, or the unit itself. No character has the number of
a half. -/
def number : Piece → Nat
  | char c => c.toNat
  | half unit => unit

instance : Ord Piece := ⟨compareOn number⟩

/-- Tells whether a piece is a blank. -/
def isBlank : Piece → Bool
  | char c => Text.isBlank c
  | half _ => false

/-- A piece with a character put in for each half. -/
def filled (f : Nat → Char) : Piece → Char
  | char c => c
  | half unit => f unit

/-- A piece as it is shown. No character stands for a half, so it is replaced. -/
def shown : Piece → Char :=
  filled fun _ => '\uFFFD'

/-- Tells whether a piece is no character. -/
def isHalf : Piece → Bool
  | char _ => false
  | half _ => true

/-- Tells whether the name of a file can hold a piece. The halves that it can hold stand for octets
of the name that are no UTF-8. -/
def isNameable : Piece → Bool
  | char _ => true
  | half unit => 0xDC80 ≤ unit && unit ≤ 0xDCFF

/-- A piece as it stands inside quotation marks. -/
def quoted (mark : Char) : Piece → List Char
  | char c => quotedChar mark c
  | half unit => '\\' :: 'u' :: hex 4 unit

end Piece

/-- The characters of a text are its pieces. -/
def piecesOf (s : String) : Torn :=
  s.toList.map .char

/-- The text of pieces with a character put in for each half. -/
def filledPieces (f : Nat → Char) (pieces : Torn) : String :=
  .ofList (pieces.map (Piece.filled f))

/-- The text of pieces as it is shown. -/
def shownPieces : Torn → String :=
  filledPieces fun _ => '\uFFFD'

/-- Writes each run of blanks as a single space. -/
def collapsePieces : Torn → Torn
  | [] => []
  | p :: ps =>
    if p.isBlank then
      if ps.head?.any Piece.isBlank then collapsePieces ps else .char ' ' :: collapsePieces ps
    else p :: collapsePieces ps

/-- Pieces between quotation marks. -/
def quotePieces (pieces : Torn) : String :=
  let mark := markFor (pieces.map Piece.shown)
  .ofList (mark :: pieces.flatMap (Piece.quoted mark) ++ [mark])

end ExpectedDiagnostics.Text
