import ExpectedDiagnostics.Dialect
import ExpectedDiagnostics.Lexeme
import ExpectedDiagnostics.Lexeme.Grammar

/-!
# Reading lexemes

The lexemes of a TypeScript text. Strings, templates, regular expressions and the text between
markup tags are tokens, so nothing inside them is a comment; the expressions inside a template or
between tags are read like any other code.

Each step looks at the first character of what is left and says how many more characters belong to
the lexeme that it begins. Two marks are read in two ways: an opening angle bracket behind an
operand may stand around type arguments, and a colon behind parentheses may stand in front of the
type of a result. There the text is first read on as types; the other way is taken if that fails.
-/

namespace ExpectedDiagnostics.Lexeme

/-- What is known between two lexemes: the goals, and whether a line has ended since the last
token. -/
structure State where
  goals : List Goal
  newLine : Bool
  deriving DecidableEq, Repr

/-- The kinds of what a step reads. -/
inductive Piece
  | space
  | comment
  | token
  deriving DecidableEq, Repr

/-- What a step reads: its kind, the number of characters after the first one, and what is known
afterwards. A token that no goal has a use for changes nothing. -/
structure Step where
  piece : Piece
  more : Nat
  state : State
  used : Bool := true

/-- How the two ambiguous marks are read, by what follows them. -/
structure Guess where
  /-- Types up to a closing angle bracket follow. -/
  angles : List Char → Bool
  /-- Type arguments follow, and then something that can stand behind them. -/
  arguments : List Char → Bool
  /-- The type of a result follows, then an arrow, a body and a colon. -/
  result : List Char → Bool

/-- Never reads the ambiguous marks as types, unless only a type can stand there. -/
def Guess.none : Guess :=
  ⟨fun _ => true, fun _ => false, fun _ => false⟩

namespace State

/-- The state before a text. -/
def initial : State := ⟨[.text, .statements], false⟩

/-- Reads space. -/
def space (s : State) (c : Char) : Step :=
  ⟨.space, 0, { s with newLine := s.newLine || isLineBreak c }, true⟩

/-- Reads a comment. -/
def comment (s : State) (more : Nat) (cs : List Char) : Step :=
  ⟨.comment, more, { s with newLine := s.newLine || (cs.take more).any isLineBreak }, true⟩

/-- Reads a token of code. -/
def code (s : State) (more : Nat) (cs : List Char) (t : Token) : Step :=
  match Goal.takeFirst? t ⟨s.newLine, cs.drop more⟩ s.goals with
  | some goals => ⟨.token, more, ⟨goals, false⟩, true⟩
  | none => ⟨.token, more, { s with newLine := false }, false⟩

/-- Reads a token that puts some goals in the place of the first one. -/
def become (s : State) (more : Nat) (goals : List Goal) : Step :=
  ⟨.token, more, ⟨goals ++ s.goals.drop 1, false⟩, true⟩

/-! ## Code -/

/-- Reads a comment if one begins with a slash. -/
def comment? (s : State) (cs : List Char) : Option Step :=
  match cs with
  | '/' :: rest => some (s.comment (1 + lineRest rest) cs)
  | '*' :: rest => some (s.comment (1 + blockCommentRest rest) cs)
  | _ => none

/-- Reads what a slash begins: a comment, a regular expression or an operator. -/
def slash (s : State) (cs : List Char) : Step :=
  match s.comment? cs with
  | some step => step
  | none =>
    if Goal.slashBeginsPattern s.goals then s.code (flaggedPatternRest cs) cs .literal
    else s.code 0 cs (.mark "/")

/-- Reads an operator or another mark. -/
def mark (s : State) (c : Char) (cs : List Char) : Step :=
  let m := longestMark c cs
  s.code (m.length - 1) cs (.mark m)

/-- Reads an opening angle bracket. -/
def angle (s : State) (guess : Guess) (dialect : Dialect) (cs : List Char) : Step :=
  let types : Bool := match Goal.angleUse s.newLine s.goals with
    | .types => true
    | .typesIfClosed => guess.angles cs
    | .operand => dialect == .plain || !startsElement cs
    | .operator => guess.arguments cs
    | .less => false
  let begins := Goal.angleUse s.newLine s.goals == .operand
  if types then s.code 0 cs .angle
  else if begins then s.code 0 cs .element
  else s.mark '<' cs

/-- Reads a colon. -/
def colon (s : State) (guess : Guess) (cs : List Char) : Step :=
  let result : Bool := match s.goals with
    | .operator .full true :: .colon :: _ => guess.result cs
    | .operator .full true :: _ => true
    | _ => false
  s.code 0 cs (if result then .result else .mark ":")

/-- Reads a piece of code that begins with a character. -/
def codePiece (s : State) (guess : Guess) (dialect : Dialect) (c : Char) (cs : List Char) : Step :=
  if isSpace c then s.space c
  else if c == '/' then s.slash cs
  else if c == '\x22' || c == '\x27' then s.code (quotedRest c cs) cs .literal
  else if c == '\x60' then s.code 0 cs .template
  else if c.isDigit || (c == '.' && cs.head?.any Char.isDigit) then
    s.code (numberRest cs) cs .literal
  else if c == '#' && cs.head? == some '!' && s.goals.head? == some .text then
    s.become (lineRest cs) []
  else if startsWord c then
    let more := wordRest false (c :: cs) - 1
    s.code more cs (.word (.ofList (c :: cs.take more)))
  else if c == '(' then s.code 0 cs (.opening .round)
  else if c == ')' then s.code 0 cs (.closing .round)
  else if c == '[' then s.code 0 cs (.opening .square)
  else if c == ']' then s.code 0 cs (.closing .square)
  else if c == '\x7b' then s.code 0 cs (.opening .curly)
  else if c == '\x7d' then s.code 0 cs (.closing .curly)
  else if c == '<' then s.angle guess dialect cs
  else if c == ':' then s.colon guess cs
  else s.mark c cs

/-! ## Templates and markup -/

/-- Reads a piece of a template. -/
def template (s : State) (ofTypes : Bool) (c : Char) (cs : List Char) : Step :=
  let again := Goal.templateText ofTypes
  if c == '\x60' then s.become 0 []
  else if c == '$' && cs.head? == some '\x7b' then
    s.become 1 [if ofTypes then .typeItems .curly else .items .curly, again]
  else s.become (templateRest (c :: cs) - 1) [again]

/-- Reads a piece of a tag. -/
def tag (s : State) (part : TagPart) (value : Bool) (c : Char) (cs : List Char) : Step :=
  if isSpace c then s.space c
  else if c == '/' then (s.comment? cs).getD (s.become 0 [.tag .closed false])
  else if c == '>' then s.become 0 (if part == .opening then [.content] else [])
  else if c == '\x22' || c == '\x27' then s.become (plainQuotedRest c cs) [.tag part false]
  else if c == '\x7b' then s.become 0 [.items .curly, .tag part false]
  else if c == '<' then
    s.become 0 [if value then .tag .opening false else .arguments false, .tag part false]
  else if c == '=' then s.become 0 [.tag part true]
  else if startsWord c then
    s.become (cs.takeWhile isElementNameChar).length [.tag part false]
  else s.become 0 [.tag part value]

/-- Reads a piece of what stands between the tags of an element. -/
def content (s : State) (c : Char) (cs : List Char) : Step :=
  if c == '\x7b' then s.become 0 [.items .curly, .content]
  else if c == '<' then
    if cs.head? == some '/' then s.become 1 [.tag .closing false]
    else s.become 0 [.tag .opening false, .content]
  else s.become (cs.takeWhile fun d => d != '\x7b' && d != '<').length [.content]

/-- Reads the piece that begins with a character, for the first goal. -/
def stepWith (s : State) (guess : Guess) (dialect : Dialect) (c : Char) (cs : List Char) : Step :=
  match s.goals with
  | .templateText ofTypes :: _ => s.template ofTypes c cs
  | .tag part value :: _ => s.tag part value c cs
  | .content :: _ => s.content c cs
  | _ => s.codePiece guess dialect c cs

/-! ## Reading ahead -/

/-- What is left of a text after all goals have been reached. -/
def reached? (dialect : Dialect) (s : State) : List Char → Option (List Char)
  | [] => none
  | c :: cs =>
    let step := s.stepWith .none dialect c cs
    let rest := cs.drop step.more
    if !step.used then none
    else if step.state.goals.isEmpty then some rest
    else reached? dialect step.state rest
termination_by cs => cs.length
decreasing_by
  simp only [List.length_drop, List.length_cons]
  omega

/-- Reads the ambiguous marks by reading ahead. -/
def guessAhead (dialect : Dialect) : Guess where
  angles cs := (reached? dialect ⟨[.arguments false], false⟩ cs).isSome
  arguments cs := (reached? dialect ⟨[.arguments false], false⟩ cs).any followsTypeArguments
  result cs := (reached? dialect ⟨[.type, .arrow, .colon], false⟩ cs).isSome

/-- Reads the piece that begins with a character. -/
def step (s : State) (dialect : Dialect) (c : Char) (cs : List Char) : Step :=
  s.stepWith (guessAhead dialect) dialect c cs

end State

/-! ## Texts -/

/-- The number of line feeds of a text. -/
def lineFeeds (cs : List Char) : Nat :=
  cs.count '\n'

/-- The lexemes of what is left of a text, from a row on. -/
def scanFrom (dialect : Dialect) (s : State) (row : Nat) : List Char → List Lexeme
  | [] => []
  | c :: cs =>
    let step := s.step dialect c cs
    let text := c :: cs.take step.more
    let stopRow := row + lineFeeds text
    let rest := scanFrom dialect step.state stopRow (cs.drop step.more)
    match step.piece with
    | .space => rest
    | .comment => .comment (.ofList text) row :: rest
    | .token => .token row stopRow :: rest
termination_by cs => cs.length
decreasing_by
  simp only [List.length_drop, List.length_cons]
  omega

/-- The lexemes of a text. -/
def scan (dialect : Dialect) (text : String) : List Lexeme :=
  scanFrom dialect .initial 0 text.toList

end Lexeme

namespace CommentGroup

/-- The comment groups of a text. -/
def ofText (text : String) (dialect : Dialect) : List CommentGroup :=
  Lexeme.groups (Lexeme.scan dialect text)

end CommentGroup

end ExpectedDiagnostics
