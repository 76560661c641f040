import ExpectedDiagnostics.Json.Reader

/-!
# Texts of a TOML document

Blanks and comments, and the four forms of texts: between single or double quotes, on one line or
on several. Between double quotes a backslash begins an escape. Every reader gives what it read and
the characters left, or nothing if the characters cannot stand there.
-/

namespace ExpectedDiagnostics.Toml

/-- Tells whether a character is a blank within a line. -/
def isBlank (c : Char) : Bool :=
  c == ' ' || c == '\t'

/-- Tells whether a character is a blank or ends a line. -/
def isBlankOrEnd (c : Char) : Bool :=
  isBlank c || c == '\n'

/-- Tells whether a character may not stand in a comment or in a text on one line. -/
def isControl (c : Char) : Bool :=
  (c.toNat ≤ 31 && c != '\t') || c.toNat == 127

/-- Tells whether a character may not stand in a text on several lines. -/
def isControlInLines (c : Char) : Bool :=
  isControl c && c != '\n'

/-- The single quote. -/
def singleQuote : Char := '\x27'

/-- The double quote. -/
def doubleQuote : Char := '\x22'

/-- Skips the blanks within a line. -/
def skipBlanks (cs : List Char) : List Char :=
  cs.dropWhile isBlank

/-- Skips a comment up to the end of its line. -/
def skipComment? (cs : List Char) : Option (List Char) :=
  match cs with
  | '#' :: cs =>
    if (cs.takeWhile (· != '\n')).any isControl then none else some (cs.dropWhile (· != '\n'))
  | cs => some cs

/-- Skips blanks, line ends and comments, at most `fuel` comments. -/
def skipLines? : Nat → List Char → Option (List Char)
  | 0, cs => some cs
  | fuel + 1, cs =>
    match cs.dropWhile isBlankOrEnd with
    | '#' :: rest =>
      match skipComment? ('#' :: rest) with
      | none => none
      | some rest => skipLines? fuel rest
    | cs => some cs

/-! ## Single quotes -/

/-- Reads the rest of a text between single quotes on one line. -/
def literalRest? : List Char → Option (List Char × List Char)
  | [] => none
  | c :: cs =>
    if c == singleQuote then some ([], cs)
    else if isControl c then none
    else (literalRest? cs).map fun (text, rest) => (c :: text, rest)

/-- Reads the rest of a text between single quotes on several lines, up to three quotes. -/
def literalLinesRest? : List Char → Option (List Char × List Char)
  | [] => none
  | '\x27' :: '\x27' :: '\x27' :: cs => some ([], cs)
  | c :: cs =>
    if isControlInLines c then none
    else (literalLinesRest? cs).map fun (text, rest) => (c :: text, rest)

/-! ## Double quotes -/

/-- The character that a short escape stands for. -/
def shortEscape? : Char → Option Char
  | 'b' => some '\x08'
  | 't' => some '\t'
  | 'n' => some '\n'
  | 'f' => some '\x0c'
  | 'r' => some '\r'
  | '"' => some '"'
  | '\\' => some '\\'
  | _ => none

/-- The character with a number in hexadecimal digits. A surrogate is no character. -/
def hexChar? (ds : List Char) : Option Char := do
  let values ← ds.mapM Json.hexValue?
  let n := values.foldl (fun n d => 16 * n + d) 0
  if n.isValidChar then return Char.ofNat n else none

/-- What is skipped after a backslash at the end of a line: nothing, the blanks up to the line end,
or everything up to the next character of the text. -/
inductive Skip
  | nothing
  | toEnd
  | toText
  deriving DecidableEq, Repr

/-- Reads the rest of a text between double quotes, on one line or on several. -/
def basicRest? (inLines : Bool) : Skip → List Char → Option (List Char × List Char)
  | _, [] => none
  | .toEnd, c :: cs =>
    if c == '\n' then basicRest? inLines .toText cs
    else if isBlank c then basicRest? inLines .toEnd cs
    else none
  | _, '\\' :: 'u' :: a :: b :: c :: d :: cs =>
    match hexChar? [a, b, c, d] with
    | none => none
    | some e => (basicRest? inLines .nothing cs).map fun (text, rest) => (e :: text, rest)
  | _, '\\' :: 'U' :: a :: b :: c :: d :: e :: f :: g :: h :: cs =>
    match hexChar? [a, b, c, d, e, f, g, h] with
    | none => none
    | some e => (basicRest? inLines .nothing cs).map fun (text, rest) => (e :: text, rest)
  | _, '\\' :: c :: cs =>
    if inLines && c == '\n' then basicRest? inLines .toText cs
    else if inLines && isBlank c then basicRest? inLines .toEnd cs
    else
      match shortEscape? c with
      | none => none
      | some e => (basicRest? inLines .nothing cs).map fun (text, rest) => (e :: text, rest)
  | _, '\x22' :: '\x22' :: '\x22' :: cs =>
    if inLines then some ([], cs) else some ([], '\x22' :: '\x22' :: cs)
  | skip, c :: cs =>
    if skip == .toText && isBlankOrEnd c then basicRest? inLines .toText cs
    else if c == doubleQuote && !inLines then some ([], cs)
    else if (if inLines then isControlInLines c else isControl c) then none
    else if c == '\\' then none
    else (basicRest? inLines .nothing cs).map fun (text, rest) => (c :: text, rest)

/-! ## Texts -/

/-- Drops a line end right after the opening quotes. -/
def dropFirstEnd : List Char → List Char
  | '\n' :: cs => cs
  | cs => cs

/-- Adds the quotes, two at most, that stand right in front of the closing ones. -/
def withLastQuotes (quote : Char) (text rest : List Char) : List Char × List Char :=
  match rest with
  | a :: b :: cs =>
    if a == quote && b == quote then (text ++ [quote, quote], cs)
    else if a == quote then (text ++ [quote], b :: cs)
    else (text, rest)
  | [a] => if a == quote then (text ++ [quote], []) else (text, rest)
  | [] => (text, rest)

/-- Reads a text on one line. -/
def lineText? : List Char → Option (List Char × List Char)
  | c :: cs =>
    if c == singleQuote then literalRest? cs
    else if c == doubleQuote then basicRest? false .nothing cs
    else none
  | [] => none

/-- Reads a text, on one line or on several. -/
def text? : List Char → Option (List Char × List Char)
  | '\x27' :: '\x27' :: '\x27' :: cs =>
    (literalLinesRest? (dropFirstEnd cs)).map fun (text, rest) => withLastQuotes '\x27' text rest
  | '\x22' :: '\x22' :: '\x22' :: cs =>
    (basicRest? true .nothing (dropFirstEnd cs)).map fun (text, rest) =>
      withLastQuotes '\x22' text rest
  | cs => lineText? cs

end ExpectedDiagnostics.Toml
