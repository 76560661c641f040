/-!
# Shell words

Cutting a command line into words as a shell does, and writing words so that a shell reads them
back. A word may hold parts between single quotes, in which everything stands for itself, and parts
between double quotes, in which a backslash only escapes a double quote or a backslash; outside of
quotes a backslash escapes any character.
-/

namespace ExpectedDiagnostics.ShellWords

/-- Why a text is no command line. -/
inductive Fault
  | openQuote
  | openEscape
  deriving DecidableEq, Repr

/-- The wording of a fault. -/
def Fault.message : Fault → String
  | openQuote => "No closing quotation"
  | openEscape => "No escaped character"

/-- Where in a command line a character stands. -/
inductive Spot
  | gap
  | word
  | single
  | double
  deriving DecidableEq, Repr

/-- Tells whether a character separates words. -/
def isSeparator (c : Char) : Bool :=
  c == ' ' || c == '\t' || c == '\r' || c == '\n'

/-- The single quote. -/
def singleQuote : Char := '\x27'

/-- The double quote. -/
def doubleQuote : Char := '\x22'

/-- Cuts the rest of a command line into words. The word that is being read is given in
reverse. -/
def splitFrom : Spot → List Char → List Char → Except Fault (List String)
  | .gap, _, [] => .ok []
  | .word, word, [] => .ok [.ofList word.reverse]
  | .single, _, [] => .error .openQuote
  | .double, _, [] => .error .openQuote
  | .single, word, c :: cs =>
    if c == singleQuote then splitFrom .word word cs else splitFrom .single (c :: word) cs
  | .double, _, ['\\'] => .error .openEscape
  | .double, word, '\\' :: c :: cs =>
    if c == doubleQuote || c == '\\' then splitFrom .double (c :: word) cs
    else splitFrom .double (c :: '\\' :: word) cs
  | .double, word, c :: cs =>
    if c == doubleQuote then splitFrom .word word cs else splitFrom .double (c :: word) cs
  | _, _, ['\\'] => .error .openEscape
  | _, word, '\\' :: c :: cs => splitFrom .word (c :: word) cs
  | spot, word, c :: cs =>
    if c == singleQuote then splitFrom .single word cs
    else if c == doubleQuote then splitFrom .double word cs
    else if isSeparator c then
      if spot == .gap then splitFrom .gap [] cs
      else do
        let words ← splitFrom .gap [] cs
        return .ofList word.reverse :: words
    else splitFrom .word (c :: word) cs

/-- The words of a command line. -/
def split (s : String) : Except Fault (List String) :=
  splitFrom .gap [] s.toList

/-- Tells whether a character stands for itself outside of quotes. -/
def isPlain (c : Char) : Bool :=
  c.isAlphanum || "_@%+=:,./-".toList.contains c

/-- A character between single quotes. A single quote ends the quotes and stands between double
ones. -/
def quotedChar (c : Char) : List Char :=
  if c == singleQuote then [singleQuote, doubleQuote, singleQuote, doubleQuote, singleQuote]
  else [c]

/-- A word as it is written in a command line. -/
def quote (word : String) : String :=
  let cs := word.toList
  if !cs.isEmpty && cs.all isPlain then word
  else .ofList (singleQuote :: cs.flatMap quotedChar ++ [singleQuote])

/-- The command line of words. -/
def join (words : List String) : String :=
  String.intercalate " " (words.map quote)

end ExpectedDiagnostics.ShellWords
