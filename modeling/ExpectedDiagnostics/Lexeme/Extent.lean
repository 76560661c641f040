import ExpectedDiagnostics.Text.Blank

/-!
# How far a lexeme reaches

The classes of characters that lexemes are made of, and how many characters belong to a lexeme
after its first ones. A lexeme that is not ended reaches to the end of the text.
-/

namespace ExpectedDiagnostics.Lexeme

/-! ## Characters -/

/-- Tells whether a character separates tokens. -/
def isSpace (c : Char) : Bool :=
  Text.isBlank c || c == '\uFEFF' || c == '\u200B' || c == '\u2060'

/-- Tells whether a character ends a line, and with it a line comment. -/
def isLineBreak (c : Char) : Bool :=
  c == '\n' || c == '\r' || c == '\u2028' || c == '\u2029'

/-- Tells whether a character can begin a word. -/
def startsWord (c : Char) : Bool :=
  c.isAlpha || c == '_' || c == '$' || c == '#' || c == '\\' || (128 ≤ c.toNat && !isSpace c)

/-- Tells whether a character can go on a word. -/
def isWordChar (c : Char) : Bool :=
  startsWord c || c.isDigit

/-- Tells whether a character can stand in the name of an element. -/
def isElementNameChar (c : Char) : Bool :=
  isWordChar c || c == '-' || c == '.' || c == ':'

/-! ## Lengths -/

/-- The number of characters up to the end of the line. -/
def lineRest (cs : List Char) : Nat :=
  (cs.takeWhile (!isLineBreak ·)).length

/-- The number of characters of the rest of a block comment, up to its end. -/
def blockCommentRest : List Char → Nat
  | [] => 0
  | '*' :: '/' :: _ => 2
  | _ :: cs => blockCommentRest cs + 1

/-- The number of characters of the rest of a word. A character may be written as its number,
between braces after a backslash and a `u`. -/
def wordRest (inBraces : Bool) : List Char → Nat
  | [] => 0
  | '\\' :: 'u' :: '\x7b' :: cs => wordRest true cs + 3
  | c :: cs =>
    if inBraces then wordRest (c != '\x7d') cs + 1
    else if isWordChar c then wordRest false cs + 1
    else 0

/-- The number of characters of the rest of a number. -/
def numberRest (cs : List Char) : Nat :=
  (cs.takeWhile fun c => isWordChar c || c == '.').length

/-- The number of characters of the rest of a text between quotes, in which a backslash takes the
next character's meaning away. -/
def quotedRest (quote : Char) : List Char → Nat
  | [] => 0
  | '\\' :: _ :: cs => quotedRest quote cs + 2
  | c :: cs => if c == quote then 1 else quotedRest quote cs + 1

/-- The number of characters of the rest of a text between quotes without escapes. -/
def plainQuotedRest (quote : Char) : List Char → Nat
  | [] => 0
  | c :: cs => if c == quote then 1 else plainQuotedRest quote cs + 1

/-- The number of characters of the rest of a regular expression up to its last slash. A slash
inside a class of characters does not end it. -/
def patternRest (inClass : Bool) : List Char → Nat
  | [] => 0
  | '\\' :: _ :: cs => patternRest inClass cs + 2
  | c :: cs =>
    if c == '/' && !inClass then 1
    else if c == '[' then patternRest true cs + 1
    else if c == ']' then patternRest false cs + 1
    else if c == '\n' then 0
    else patternRest inClass cs + 1

/-- The number of characters of the rest of a regular expression with the flags behind it. -/
def flaggedPatternRest (cs : List Char) : Nat :=
  let pattern := patternRest false cs
  pattern + wordRest false (cs.drop pattern)

/-- The number of characters of a template up to its end or its next expression. -/
def templateRest : List Char → Nat
  | [] => 0
  | '\\' :: _ :: cs => templateRest cs + 2
  | '$' :: '\x7b' :: _ => 0
  | c :: cs => if c == '\x60' then 0 else templateRest cs + 1

/-- The operators and marks of more than one character, the longer ones first. Marks that begin with
a closing angle bracket are not among them, since that bracket may close type arguments. -/
def longMarks : List String :=
  ["<<=", "===", "!==", "**=", "&&=", "||=", "??=", "...", "=>", "==", "!=", "++", "--", "+=", "-=",
    "*=", "%=", "&=", "|=", "^=", "**", "&&", "||", "??", "?.", "<<", "<="]

/-- The operator or mark at the beginning of a text. A question mark and a dot in front of a digit
are two. -/
def longestMark (c : Char) (cs : List Char) : String :=
  let beforeDigit := c == '?' && ((cs.drop 1).head?.any Char.isDigit)
  let found := longMarks.find? fun mark => mark.toList.isPrefixOf (c :: cs)
  match found with
  | some mark => if mark == "?." && beforeDigit then c.toString else mark
  | none => c.toString

end ExpectedDiagnostics.Lexeme
