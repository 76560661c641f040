/-!
# Tokens and goals

A text is read with a stack of goals: the constructs that are still to be read, the innermost first.
A token goes to the first goal that has a use for it; the goals in front of that one are reached.
The tokens tell apart only what some goal asks for.
-/

namespace ExpectedDiagnostics.Lexeme

/-- The pairs of brackets. -/
inductive Bracket
  | round
  | square
  | curly
  deriving DecidableEq, Repr

/-- A token, as far as it decides what can follow. -/
inductive Token
  /-- A name or a keyword. -/
  | word (text : String)
  /-- A number, a text between quotes or a regular expression. -/
  | literal
  /-- The back quote that begins a template. -/
  | template
  /-- An opening angle bracket around types. -/
  | angle
  /-- An opening angle bracket around the name of an element. -/
  | element
  /-- The colon between the parameters of an arrow function and the type of its result. -/
  | result
  /-- An opening bracket. -/
  | opening (b : Bracket)
  /-- A closing bracket. -/
  | closing (b : Bracket)
  /-- An operator or another mark. -/
  | mark (text : String)
  deriving DecidableEq, Repr

/-- What an operand can be continued with. -/
inductive Reach
  /-- Everything: members, calls and all operators. -/
  | full
  /-- The operators between operands only. -/
  | binary
  /-- Members and calls, in what a class extends. -/
  | heritage
  /-- Members by name and calls, in a decorator. -/
  | decorator
  deriving DecidableEq, Repr

/-- The part of a markup tag that is being read. -/
inductive TagPart
  /-- A tag that begins an element. -/
  | opening
  /-- A tag that is an element of its own, after its slash. -/
  | closed
  /-- A tag that ends an element. -/
  | closing
  deriving DecidableEq, Repr

/-- A construct that is still to be read, or the rest of one. -/
inductive Goal
  /-- The whole text, of which nothing has been read. -/
  | text
  /-- Statements up to a closing brace. -/
  | statements
  /-- The end of a statement: a semicolon, which may be missing, or a comma and an expression. -/
  | statementEnd
  /-- The label of a jump, which may be missing. -/
  | jumpLabel
  /-- An operand in the same line, which may be missing. -/
  | optionalOperand
  /-- An expression in parentheses. -/
  | condition
  /-- What follows the word of a counting loop. -/
  | loopHead
  /-- The clauses of a counting loop; tells whether the clause has begun. -/
  | loopClauses (begun : Bool)
  /-- Names that are declared; tells whether one has just been read. -/
  | bindings (named : Bool)
  /-- A function, after its word. -/
  | functionHead
  /-- A function, after its parameters. -/
  | functionBody
  /-- A class, after its word. -/
  | classHead
  /-- The members of a class. -/
  | classMembers
  /-- A name in brackets of a member, or of an index. -/
  | key
  /-- An interface, after its word. -/
  | interfaceHead
  /-- The members of an interface or of a type. -/
  | typeMembers
  /-- The members of an object; tells whether the parameters of a method have just been read. -/
  | objectMembers (method : Bool)
  /-- Names in braces, after some words. -/
  | namesInBraces
  /-- The name and the statements of a namespace. -/
  | namespaceHead
  /-- The name of a type, its parameters and what it stands for. -/
  | typeAlias
  /-- What an import names. -/
  | importClause
  /-- What follows the place that names are imported from. -/
  | importAttributes
  /-- What follows the word of an export. -/
  | exportClause
  /-- What is exported by default. -/
  | exportDefault
  /-- The place that exported names come from, which may be missing. -/
  | exportSource
  /-- An operand and what continues it. -/
  | operand (r : Reach)
  /-- What continues an operand; tells whether it ended in parentheses. -/
  | operator (r : Reach) (call : Bool)
  /-- A colon. -/
  | colon
  /-- The arrow of a function. -/
  | arrow
  /-- The body of a function after its arrow. -/
  | arrowBody
  /-- The name of a member. -/
  | member
  /-- Expressions up to a closing bracket. -/
  | items (b : Bracket)
  /-- Parameters up to the closing parenthesis. -/
  | parameters
  /-- Type parameters, or the type of an assertion, up to the closing angle bracket; tells whether
  one has just been read. -/
  | angles (typed : Bool)
  /-- Type arguments up to the closing angle bracket; tells whether one has just been read. -/
  | arguments (typed : Bool)
  /-- A type. -/
  | type
  /-- What continues a type; tells whether type arguments can follow, and whether it is the
  parameters of a function so far. -/
  | typeRest (named afterParameters : Bool)
  /-- The two results of a type that depends on a condition. -/
  | typeChoice
  /-- Types or parameters up to a closing bracket. -/
  | typeItems (b : Bracket)
  /-- A template, of text or of types. -/
  | templateText (ofTypes : Bool)
  /-- A tag of an element; tells whether the value of an attribute is next. -/
  | tag (part : TagPart) (value : Bool)
  /-- What stands between the tags of an element. -/
  | content
  deriving DecidableEq, Repr

end ExpectedDiagnostics.Lexeme
