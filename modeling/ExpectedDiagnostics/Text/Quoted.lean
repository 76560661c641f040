import ExpectedDiagnostics.Text.Printable

/-!
# Quoted text

A text between quotation marks, so that its ends and its hidden characters can be seen. Single
marks are used unless the text has single marks and no double ones.
-/

namespace ExpectedDiagnostics.Text

/-- The apostrophe. -/
def singleMark : Char := '\x27'

/-- The quotation mark. -/
def doubleMark : Char := '\x22'

/-- The mark that goes around a text. -/
def markFor (cs : List Char) : Char :=
  if cs.contains singleMark && !cs.contains doubleMark then doubleMark else singleMark

/-- A number in hexadecimal digits, lower case, with at least `width` of them. -/
def hex (width n : Nat) : List Char :=
  let digits := Nat.toDigits 16 n
  List.replicate (width - digits.length) '0' ++ digits

/-- A character as it stands inside quotation marks. -/
def quotedChar (mark c : Char) : List Char :=
  if c == mark || c == '\\' then ['\\', c]
  else if c == '\n' then ['\\', 'n']
  else if c == '\r' then ['\\', 'r']
  else if c == '\t' then ['\\', 't']
  else if isPrintable c then [c]
  else if c.toNat ≤ 0xFF then '\\' :: 'x' :: hex 2 c.toNat
  else if c.toNat ≤ 0xFFFF then '\\' :: 'u' :: hex 4 c.toNat
  else '\\' :: 'U' :: hex 8 c.toNat

/-- A text between quotation marks. -/
def quote (s : String) : String :=
  let cs := s.toList
  let mark := markFor cs
  .ofList (mark :: cs.flatMap (quotedChar mark) ++ [mark])

end ExpectedDiagnostics.Text
