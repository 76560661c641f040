/-!
# Lines

Two readings of a text as lines: `splitLines` cuts at every character that ends a line, and
`unifyLineEnds` turns the three customary line ends into the line feed.
-/

namespace ExpectedDiagnostics.Text

/-- Tells whether a character ends a line: line feed, carriage return, vertical tab, form feed,
the three larger information separators, next line, and the line and paragraph separators. -/
def isLineEnd (c : Char) : Bool :=
  (10 ≤ c.toNat && c.toNat ≤ 13) || (0x1C ≤ c.toNat && c.toNat ≤ 0x1E) || c.toNat == 0x85 ||
    c.toNat == 0x2028 || c.toNat == 0x2029

/-- The lines of a text, without their ends. A carriage return and a line feed in a row are one
end, and an end after the last line adds no line. -/
def splitLines : List Char → List (List Char)
  | [] => []
  | '\r' :: '\n' :: cs => [] :: splitLines cs
  | c :: cs =>
    if isLineEnd c then [] :: splitLines cs
    else
      match splitLines cs with
      | [] => [[c]]
      | line :: lines => (c :: line) :: lines

/-- Writes a carriage return, with or without a line feed after it, as a line feed. -/
def unifyLineEnds : List Char → List Char
  | [] => []
  | '\r' :: '\n' :: cs => '\n' :: unifyLineEnds cs
  | '\r' :: cs => '\n' :: unifyLineEnds cs
  | c :: cs => c :: unifyLineEnds cs

end ExpectedDiagnostics.Text
