import ExpectedDiagnostics.Lexeme.Extent

/-!
# What comes next

A few constructs are told apart only by what follows their first token. The functions here look at
the text behind a token, past space and comments.
-/

namespace ExpectedDiagnostics.Lexeme

/-! ## Gaps -/

/-- Where a character between two tokens stands. -/
inductive Gap
  | space
  | lineComment
  | blockComment
  deriving DecidableEq, Repr

/-- What is left of a text after the space and the comments at its beginning, and whether a line
ended among them. -/
def Gap.skip : Gap → Bool → List Char → Bool × List Char
  | _, broken, [] => (broken, [])
  | .lineComment, broken, c :: cs =>
    if isLineBreak c then skip .space true cs else skip .lineComment broken cs
  | .blockComment, broken, '*' :: '/' :: cs => skip .space broken cs
  | .blockComment, broken, c :: cs => skip .blockComment (broken || isLineBreak c) cs
  | .space, broken, '/' :: '/' :: cs => skip .lineComment broken cs
  | .space, broken, '/' :: '*' :: cs => skip .blockComment broken cs
  | .space, broken, c :: cs =>
    if isSpace c then skip .space (broken || isLineBreak c) cs else (broken, c :: cs)

/-- What is left of a text after the space and the comments at its beginning. -/
def afterGap (cs : List Char) : List Char :=
  (Gap.space.skip false cs).2

/-- The character after the space and the comments at the beginning of a text. -/
def nextChar? (cs : List Char) : Option Char :=
  (afterGap cs).head?

/-- The word after the space and the comments at the beginning of a text, and what is behind it. -/
def nextWord? (cs : List Char) : Option (String × List Char) :=
  let rest := afterGap cs
  if rest.head?.any startsWord then
    let length := wordRest false rest
    some (.ofList (rest.take length), rest.drop length)
  else none

/-- The next word, if no line ends in front of it. -/
def nextWordInLine? (cs : List Char) : Option (String × List Char) :=
  if (Gap.space.skip false cs).1 then none else nextWord? cs

/-- Tells whether a word is an operator between two operands. -/
def isOperatorWord (word : String) : Bool :=
  ["in", "instanceof", "as", "satisfies"].contains word

/-- Tells whether a name stands next in the line: a word that is no operator. -/
def nameFollows (cs : List Char) : Bool :=
  (nextWordInLine? cs).any fun (word, _) => !isOperatorWord word

/-- Tells whether a word stands next in the line. -/
def wordFollows (word : String) (cs : List Char) : Bool :=
  (nextWordInLine? cs).any (·.1 == word)

/-! ## Parameters or a type in parentheses -/

/-- What is left of a text after the brackets that are open in it have been closed. Nothing, if what
stands between them is no pattern of names. A number or a text between quotes can only be a key. -/
def afterPattern? (depth : Nat) : List Char → Option (List Char)
  | [] => none
  | '/' :: '/' :: cs => afterPattern? depth (cs.drop (lineRest cs))
  | '/' :: '*' :: cs => afterPattern? depth (cs.drop (blockCommentRest cs))
  | c :: cs =>
    let isQuote := c == '\x22' || c == '\x27'
    if c == '[' || c == '\x7b' then afterPattern? (depth + 1) cs
    else if c == ']' || c == '\x7d' then
      if depth ≤ 1 then some cs else afterPattern? (depth - 1) cs
    else if isSpace c || [',', ':', '.', '='].contains c then afterPattern? depth cs
    else if startsWord c then afterPattern? depth (cs.drop (wordRest false (c :: cs) - 1))
    else if isQuote || c.isDigit then
      let rest := cs.drop (if isQuote then quotedRest c cs else numberRest cs)
      if nextChar? rest == some ':' then afterPattern? depth rest else none
    else none
termination_by cs => cs.length
decreasing_by
  all_goals
    simp only [List.length_drop, List.length_cons]
    omega

/-- Tells whether a parenthesis in a type opens the parameters of a function, by what follows it. -/
def startsParameters (cs : List Char) : Bool :=
  let cs := afterGap cs
  let rest :=
    match cs with
    | [] => none
    | c :: _ =>
      if c == '[' || c == '\x7b' then (afterPattern? 0 cs).map afterGap
      else (nextWord? cs).map fun (_, rest) => afterGap rest
  match cs, rest with
  | ')' :: _, _ | '.' :: _, _ => true
  | _, some (':' :: _) | _, some (',' :: _) | _, some ('?' :: _) => true
  | _, some ('=' :: next) => next.head? != some '>'
  | _, some (')' :: next) => ['=', '>'].isPrefixOf (afterGap next)
  | _, _ => false

/-! ## Markup or angle brackets -/

/-- Tells whether a tag that ends the element with a name comes up in a text. -/
def hasClosingTag (name : List Char) : List Char → Bool
  | [] => false
  | '<' :: '/' :: cs =>
    let closed := afterGap cs
    (name.isPrefixOf closed && !(closed.drop name.length).head?.any isElementNameChar) ||
      hasClosingTag name cs
  | _ :: cs => hasClosingTag name cs

/-- Tells whether a text can stand behind a tag: up to the next tag or brace nothing is closed. -/
def beginsContent (cs : List Char) : Bool :=
  (cs.takeWhile fun c => c != '<' && c != '\x7b').all fun c => c != '>' && c != '\x7d'

/-- The name of an element at the beginning of a text, and what is left behind it. -/
def elementName (cs : List Char) : List Char × List Char :=
  (cs.takeWhile isElementNameChar, afterGap (cs.dropWhile isElementNameChar))

/-- Tells whether an opening angle bracket, in the place of an operand, begins an element rather
than type parameters, by what follows it. -/
def startsElement (cs : List Char) : Bool :=
  let cs := afterGap cs
  let (name, rest) := elementName cs
  let modified := name == "const".toList && rest.head?.any startsWord
  match name, if modified then (elementName rest).2 else rest with
  | [], _ => cs.head? == some '>'
  | _, [] => false
  | first :: _, next :: after =>
    if !startsWord first || next == ',' || next == '=' then false
    else if next == '>' then hasClosingTag name after && beginsContent after
    else if (next :: after).takeWhile isWordChar == "extends".toList then
      (nextChar? ((next :: after).dropWhile isWordChar)).any fun c => ['=', '>', '/'].contains c
    else true

/-! ## Type arguments or a comparison -/

/-- Tells whether a text that follows a slash goes on as a regular expression that is all of an
operand. -/
def isPatternOperand (cs : List Char) : Bool :=
  let length := patternRest false cs
  let ended := length != 0 && (cs.take length).getLast? == some '/'
  ended && (nextChar? (cs.drop (flaggedPatternRest cs))).all fun c =>
    [')', ']', '\x7d', ',', ';', '.'].contains c

/-- Tells whether an operand with type arguments can be followed by a text. What could as well go on
a comparison is not accepted. -/
def followsTypeArguments (cs : List Char) : Bool :=
  let (broken, rest) := Gap.space.skip false cs
  if cs.head? == some '>' || cs.head? == some '=' then false
  else
    match rest with
    | [] => true
    | c :: after =>
      let mark := longestMark c after
      if c == '(' || c == '\x60' then true
      else if ["<", ">", "+", "-"].contains mark then false
      else if broken then true
      else if startsWord c then (nextWord? rest).any fun (word, _) => isOperatorWord word
      else if c.isDigit || c == '\x22' || c == '\x27' || c == '\x7b' || c == '[' then false
      else if ["++", "--", "!", "~", "@"].contains mark then false
      else if mark == "/" then !isPatternOperand after
      else !(mark == "." && after.head?.any Char.isDigit)

end ExpectedDiagnostics.Lexeme
