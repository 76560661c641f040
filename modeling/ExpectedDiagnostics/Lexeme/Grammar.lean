import ExpectedDiagnostics.Lexeme.Ahead
import ExpectedDiagnostics.Lexeme.Goal

/-!
# The grammar

What each goal makes of a token. A goal that has a use for the token is replaced by what is then
still to be read of it; one that has none is reached, and the token is for the goals behind it.

A line that ends in front of a token can end a statement. This is decided where it matters: by the
goals that a token of the next line cannot continue.
-/

namespace ExpectedDiagnostics.Lexeme

/-- Where a token stands: whether a line ended in front of it, and the text behind it. -/
structure Place where
  newLine : Bool
  behind : List Char

namespace Goal

/-! ## Expressions -/

/-- What is still to be read of an expression after its first token, if it can begin with it. -/
def begin? (r : Reach) (t : Token) (p : Place) : Option (List Goal) :=
  match t with
  | .word "function" => some [functionHead, operator r false]
  | .word "class" => some [classHead, operator r false]
  | .word "async" =>
    match nextWordInLine? p.behind with
    | none => some [operator r false]
    | some (word, rest) =>
      if word == "function" || ['=', '>'].isPrefixOf (afterGap rest) then some [operand r]
      else some [operator r false]
  | .word "new" => some [if nextChar? p.behind == some '.' then operator r false else operand r]
  | .word "yield" => some [optionalOperand]
  | .word w =>
    some [if ["typeof", "void", "delete", "await"].contains w then operand r else operator r false]
  | .literal => some [operator r false]
  | .template => some [templateText false, operator r false]
  | .angle => some [angles false, operand r]
  | .element => some [tag .opening false, operator r false]
  | .opening .round => some [items .round, operator r true]
  | .opening .square => some [items .square, operator r false]
  | .opening .curly => some [objectMembers false, operator r false]
  | .mark "@" => some [operand .decorator, operand r]
  | .mark "=>" => some [arrowBody]
  | .mark "," | .mark ";" | .mark ":" | .closing _ | .result => none
  | .mark _ => some [operand r]

/-- Tells whether a question mark in front of a text only marks a parameter that may be missing. -/
def marksOptional (behind : List Char) : Bool :=
  match nextChar? behind with
  | some c => c == ':' || c == ',' || c == ')'
  | none => false

/-- What is still to be read after a token behind an operand, if it continues the expression by an
operator between operands. -/
def betweenOperands? (t : Token) (p : Place) : Option (List Goal) :=
  match t with
  | .word "in" | .word "instanceof" => some [operand .full]
  | .word "as" | .word "satisfies" =>
    if p.newLine then none else some [type, operator .binary false]
  | .mark "?" => some [operand .full, colon, operand .full]
  | .mark m =>
    if [",", ";", ":", ".", "?.", "...", "=>", "!", "++", "--", "~", "@"].contains m then none
    else some [operand .full]
  | _ => none

/-- What is still to be read after a token behind an operand, if it continues the expression. -/
def continue? (r : Reach) (t : Token) (p : Place) : Option (List Goal) :=
  match r, t with
  | .binary, _ => betweenOperands? t p
  | _, .mark "." | _, .mark "?." => some [member, operator r false]
  | _, .opening .round => some [items .round, operator r true]
  | _, .angle => some [arguments false, operator r false]
  | .decorator, _ => none
  | _, .opening .square => some [items .square, operator r false]
  | _, .template => some [templateText false, operator r false]
  | _, .mark "!" => if p.newLine then none else some [operator r false]
  | .heritage, _ => none
  | .full, .mark "++" | .full, .mark "--" => if p.newLine then none else some [operator r false]
  | .full, .mark "=>" => some [arrowBody]
  | .full, .result => some [type, arrow]
  | .full, .mark "?" =>
    if marksOptional p.behind then some [operator r false] else betweenOperands? t p
  | .full, _ => betweenOperands? t p

/-- An expression that a goal begins with the token, in front of what the goal goes on with. -/
def beginBefore (t : Token) (p : Place) (after : List Goal) : Option (List Goal) :=
  (begin? .full t p).map (· ++ after)

/-! ## Types -/

/-- The words in front of a type that belong to it. -/
def typeOperatorWords : List String :=
  ["keyof", "unique", "readonly", "infer", "typeof", "new"]

/-- The words that are types and take no type arguments. -/
def plainTypeWords : List String :=
  ["any", "unknown", "never", "void", "null", "undefined", "object", "string", "number", "bigint",
    "boolean", "symbol", "true", "false", "this", "const"]

/-- What is still to be read of a type after its first token, if it can begin with it. -/
def beginType? (t : Token) (p : Place) : Option (List Goal) :=
  match t with
  | .word "import" => some [condition, typeRest true false]
  | .word w =>
    if typeOperatorWords.contains w then some [type]
    else if w == "abstract" && wordFollows "new" p.behind then some [type]
    else if w == "asserts" && (nextWordInLine? p.behind).isSome then some [type]
    else some [typeRest (!plainTypeWords.contains w) false]
  | .literal => some [typeRest false false]
  | .template => some [templateText true, typeRest false false]
  | .angle => some [angles false, type]
  | .opening .round => some [typeItems .round, typeRest false (startsParameters p.behind)]
  | .opening .square => some [typeItems .square, typeRest false false]
  | .opening .curly => some [typeMembers, typeRest false false]
  | .mark m => if ["|", "&", "-", "...", "?", "!", "*"].contains m then some [type] else none
  | .element | .result | .closing _ => none

/-- What is still to be read after a token behind a type, if it continues the type. -/
def continueType? (afterParameters : Bool) (t : Token) (p : Place) : Option (List Goal) :=
  match t with
  | .mark "|" | .mark "&" => some [type]
  | .mark "." => some [member, typeRest true false]
  | .mark "=>" => if afterParameters then some [type] else none
  | .angle => some [arguments false, typeRest false false]
  | .opening .square => if p.newLine then none else some [typeItems .square, typeRest false false]
  | .word "is" => if p.newLine then none else some [type]
  | .word "extends" => if p.newLine then none else some [type, typeChoice]
  | _ => none

/-- A type that a goal begins with the token, in front of what the goal goes on with. -/
def beginTypeBefore (t : Token) (p : Place) (after : List Goal) : Option (List Goal) :=
  (beginType? t p).map (· ++ after)

/-! ## Statements -/

/-- What is still to be read of a statement, and of those behind it, after its first word. -/
def statement? (w : String) (p : Place) : Option (List Goal) :=
  let simple (goals : List Goal) : Option (List Goal) := some (goals ++ [statementEnd, statements])
  let headed (goals : List Goal) : Option (List Goal) := some (goals ++ [statements])
  let expression := beginBefore (.word w) p [statementEnd, statements]
  match w with
  | "else" | "do" | "try" | "finally" | "debugger" => headed []
  | "if" | "while" | "with" | "switch" | "catch" => headed [condition]
  | "for" => headed [loopHead]
  | "case" => headed [operand .full, colon]
  | "default" => headed [colon]
  | "return" | "throw" => simple [optionalOperand]
  | "break" | "continue" => simple [jumpLabel]
  | "var" => simple [bindings false]
  | "function" => headed [functionHead]
  | "class" => headed [classHead]
  | "enum" => headed [namesInBraces]
  | "export" => headed [exportClause]
  | "import" =>
    match nextChar? p.behind with
    | some '(' | some '.' => expression
    | _ => simple [importClause]
  | _ =>
    if nextChar? p.behind == some ':' then headed [colon]
    else
      match w with
      | "const" =>
        if (nextWord? p.behind).any (·.1 == "enum") then headed [] else simple [bindings false]
      | "let" =>
        let binds : Bool := match nextChar? p.behind with
          | some c => c == '[' || c == '\x7b' ||
              (startsWord c && (nextWord? p.behind).any fun (word, _) => !isOperatorWord word)
          | none => false
        if binds then simple [bindings false] else expression
      | "using" => if nameFollows p.behind then simple [bindings false] else expression
      | "async" => if wordFollows "function" p.behind then headed [] else expression
      | "abstract" | "declare" => if nameFollows p.behind then headed [] else expression
      | "interface" => if nameFollows p.behind then headed [interfaceHead] else expression
      | "type" =>
        match nextWordInLine? p.behind with
        | some (_, rest) =>
          let next := nextChar? rest
          if next == some '=' || next == some '<' then simple [typeAlias] else expression
        | none => expression
      | "namespace" | "module" =>
        let quoted : Bool := match nextChar? p.behind with
          | some c => c == '\x22' || c == '\x27'
          | none => false
        if nameFollows p.behind || quoted then headed [namespaceHead] else expression
      | "global" => if nextChar? p.behind == some '\x7b' then headed [namespaceHead] else expression
      | _ => expression

/-- What is still to be read of a declaration by default, if it is an expression. -/
def defaultValue? (t : Token) (p : Place) : Option (List Goal) :=
  let value := beginBefore t p [statementEnd]
  match t with
  | .word "class" | .word "function" | .mark "@" => none
  | .word "async" => if wordFollows "function" p.behind then none else value
  | .word "abstract" => if wordFollows "class" p.behind then none else value
  | .word "interface" => if nameFollows p.behind then none else value
  | _ => value

/-! ## All goals -/

/-- What takes a goal's place after a token, or nothing if the goal has no use for it. -/
def take? (g : Goal) (t : Token) (p : Place) : Option (List Goal) :=
  match g, t with
  | text, _ => none
  -- statements
  | statements, .word w => statement? w p
  | statements, .mark ";" => some [statements]
  | statements, .mark "@" => some [operand .decorator, statements]
  | statements, .opening .curly => some [statements, statements]
  | statements, .closing .curly => some []
  | statements, _ => beginBefore t p [statementEnd, statements]
  | statementEnd, .mark ";" => some []
  | statementEnd, .mark "," => some [operand .full, statementEnd]
  | statementEnd, _ => none
  | jumpLabel, .word _ => if p.newLine then none else some []
  | jumpLabel, _ => none
  | optionalOperand, _ => if p.newLine then none else begin? .full t p
  | condition, .opening .round => some [items .round]
  | condition, _ => none
  | loopHead, .word "await" => some [loopHead]
  | loopHead, .opening .round => some [loopClauses false]
  | loopHead, _ => none
  | loopClauses _, .closing .round => some []
  | loopClauses _, .mark ";" => some [loopClauses false]
  | loopClauses _, .mark "," => some [operand .full, loopClauses true]
  | loopClauses false, .word w =>
    let binds : Bool := w == "var" || w == "const" ||
      ((w == "let" || w == "using") &&
        match nextChar? p.behind with
        | some c => c == '[' || c == '\x7b' || (startsWord c &&
            (nextWord? p.behind).any fun (word, _) => !isOperatorWord word && word != "of")
        | none => false)
    if binds then some [bindings false, loopClauses true] else beginBefore t p [loopClauses true]
  | loopClauses true, .word w =>
    if w == "of" || w == "in" then some [operand .full, loopClauses true]
    else beginBefore t p [loopClauses true]
  | loopClauses _, _ => beginBefore t p [loopClauses true]
  -- declarations
  | bindings false, .word _ => some [bindings true]
  | bindings false, .opening .curly => some [objectMembers false, bindings true]
  | bindings false, .opening .square => some [items .square, bindings true]
  | bindings false, _ => none
  | bindings true, .mark "!" => if p.newLine then none else some [bindings true]
  | bindings true, .mark ":" => some [type, bindings true]
  | bindings true, .mark "=" => some [operand .full, bindings true]
  | bindings true, .mark "," => some [bindings false]
  | bindings true, _ => none
  | functionHead, .word _ | functionHead, .mark "*" => some [functionHead]
  | functionHead, .angle => some [angles false, functionHead]
  | functionHead, .opening .round => some [parameters, functionBody]
  | functionHead, _ => none
  | functionBody, .mark ":" => some [type, functionBody]
  | functionBody, .opening .curly => some [statements]
  | functionBody, _ => none
  | classHead, .word "extends" => some [operand .heritage, classHead]
  | classHead, .word "implements" | classHead, .mark "," => some [type, classHead]
  | classHead, .word _ => some [classHead]
  | classHead, .angle => some [angles false, classHead]
  | classHead, .opening .curly => some [classMembers]
  | classHead, _ => none
  | classMembers, .closing .curly => some []
  | classMembers, .opening .curly => some [statements, classMembers]
  | classMembers, .opening .square => some [key, classMembers]
  | classMembers, .opening .round => some [parameters, classMembers]
  | classMembers, .angle => some [angles false, classMembers]
  | classMembers, .mark ":" => some [type, classMembers]
  | classMembers, .mark "=" => some [operand .full, classMembers]
  | classMembers, .mark "@" => some [operand .decorator, classMembers]
  | classMembers, _ => some [classMembers]
  | key, .closing .square => some []
  | key, .mark ":" => some [type, key]
  | key, _ => beginBefore t p [key]
  | interfaceHead, .word "extends" | interfaceHead, .mark "," => some [type, interfaceHead]
  | interfaceHead, .word _ => some [interfaceHead]
  | interfaceHead, .angle => some [angles false, interfaceHead]
  | interfaceHead, .opening .curly => some [typeMembers]
  | interfaceHead, _ => none
  | typeMembers, .closing .curly => some []
  | typeMembers, .opening .square => some [typeItems .square, typeMembers]
  | typeMembers, .opening .round => some [parameters, typeMembers]
  | typeMembers, .angle => some [angles false, typeMembers]
  | typeMembers, .mark ":" => some [type, typeMembers]
  | typeMembers, .mark "/" => none
  | typeMembers, _ => some [typeMembers]
  | objectMembers _, .closing .curly => some []
  | objectMembers true, .mark ":" => some [type, objectMembers true]
  | objectMembers _, .mark ":" | objectMembers _, .mark "=" | objectMembers _, .mark "..." =>
    some [operand .full, objectMembers false]
  | objectMembers _, .opening .square => some [items .square, objectMembers false]
  | objectMembers _, .opening .round => some [parameters, objectMembers true]
  | objectMembers _, .opening .curly => some [statements, objectMembers false]
  | objectMembers _, .angle => some [angles false, objectMembers false]
  | objectMembers _, _ => some [objectMembers false]
  | namesInBraces, .word _ => some [namesInBraces]
  | namesInBraces, .opening .curly => some [objectMembers false]
  | namesInBraces, _ => none
  | namespaceHead, .word _ => if p.newLine then none else some [namespaceHead]
  | namespaceHead, .literal | namespaceHead, .mark "." => some [namespaceHead]
  | namespaceHead, .opening .curly => some [statements]
  | namespaceHead, _ => none
  | typeAlias, .word _ => some [typeAlias]
  | typeAlias, .angle => some [angles false, typeAlias]
  | typeAlias, .mark "=" => some [type]
  | typeAlias, _ => none
  -- imports and exports
  | importClause, .word _ | importClause, .mark "*" | importClause, .mark "," => some [importClause]
  | importClause, .literal => some [importAttributes]
  | importClause, .opening .curly => some [objectMembers false, importClause]
  | importClause, .mark "=" => some [operand .full]
  | importClause, _ => none
  | importAttributes, .word "with" => some [namesInBraces]
  | importAttributes, .word "assert" => if p.newLine then none else some [namesInBraces]
  | importAttributes, _ => none
  | exportClause, .word "default" => some [exportDefault]
  | exportClause, .word "as" => some [namespaceHead, statementEnd]
  | exportClause, .word "type" =>
    match nextChar? p.behind with
    | some '*' | some '\x7b' => some [exportClause]
    | _ => none
  | exportClause, .mark "=" => some [operand .full, statementEnd]
  | exportClause, .mark "*" => some [importClause, statementEnd]
  | exportClause, .opening .curly => some [objectMembers false, exportSource, statementEnd]
  | exportClause, _ => none
  | exportDefault, _ => defaultValue? t p
  | exportSource, .word "from" => some [importClause]
  | exportSource, _ => none
  -- expressions
  | operand r, _ => begin? r t p
  | operator r _, _ => continue? r t p
  | colon, .mark ":" => some []
  | colon, .mark "," => some [operand .full, colon]
  | colon, _ => none
  | arrow, .mark "=>" => some [arrowBody]
  | arrow, _ => none
  | arrowBody, .opening .curly => some [statements]
  | arrowBody, _ => begin? .full t p
  | member, .word _ => some []
  | member, _ => none
  | items b, .closing b' => if b == b' then some [] else none
  | items b, .mark "," | items b, .mark "?" => some [items b]
  | items b, .mark ":" => some [type, items b]
  | items b, _ => beginBefore t p [items b]
  | parameters, .closing .round => some []
  | parameters, .opening .curly => some [objectMembers false, parameters]
  | parameters, .opening .square => some [items .square, parameters]
  | parameters, .mark ":" => some [type, parameters]
  | parameters, .mark "=" => some [operand .full, parameters]
  | parameters, .mark "@" => some [operand .decorator, parameters]
  | parameters, _ => some [parameters]
  -- types
  | angles _, .mark ">" => some []
  | angles _, .mark "," => some [angles false]
  | angles true, .mark "=" | angles true, .word "extends" => some [type, angles true]
  | angles true, _ => none
  | angles false, .word w =>
    let modifies := ["const", "in", "out"].contains w &&
      (nextWord? p.behind).any fun (word, _) => word != "extends"
    if modifies then some [angles false] else beginTypeBefore t p [angles true]
  | angles false, _ => beginTypeBefore t p [angles true]
  | arguments _, .mark ">" => some []
  | arguments true, .mark "," => some [arguments false]
  | arguments true, _ => none
  | arguments false, _ => beginTypeBefore t p [arguments true]
  | type, _ => beginType? t p
  | typeRest _ afterParameters, _ => continueType? afterParameters t p
  | typeChoice, .mark "?" => some [type, colon, type]
  | typeChoice, _ => none
  | typeItems b, .closing b' => if b == b' then some [] else none
  | typeItems b, .mark "," | typeItems b, .mark "?" | typeItems b, .mark "..." => some [typeItems b]
  | typeItems b, .word "in" | typeItems b, .word "as" => some [typeItems b]
  | typeItems b, .mark ":" => some [type, typeItems b]
  | typeItems b, .mark "=" => some [operand .full, typeItems b]
  | typeItems b, _ => beginTypeBefore t p [typeItems b]
  -- templates and markup are read piece by piece
  | templateText _, _ | tag _ _, _ | content, _ => none

/-- What is still to be read after a token, or nothing if no goal has a use for it. -/
def takeFirst? (t : Token) (p : Place) : List Goal → Option (List Goal)
  | [] => none
  | g :: gs =>
    match g.take? t p with
    | some new => some (new ++ gs)
    | none => takeFirst? t p gs

/-! ## Slashes and angle brackets -/

/-- Tells whether a slash in front of a goal begins a regular expression, or nothing if that is for
the goals behind it. -/
def slashBeginsPattern? : Goal → Option Bool
  | operator .full _ | operator .binary _ => some false
  | statements | optionalOperand | loopClauses _ | operand _ | arrowBody | items _ | key
  | exportDefault => some true
  | angles _ | arguments _ | type | typeItems _ => some false
  | _ => none

/-- Tells whether a slash begins a regular expression rather than divides. -/
def slashBeginsPattern : List Goal → Bool
  | [] => true
  | g :: gs => (slashBeginsPattern? g).getD (slashBeginsPattern gs)

/-- The uses of an opening angle bracket. -/
inductive AngleUse
  /-- It stands around types. -/
  | types
  /-- It stands around types if they end, otherwise it is the sign for less. -/
  | typesIfClosed
  /-- It begins an operand. -/
  | operand
  /-- It stands around type arguments or is the sign for less. -/
  | operator
  /-- It is the sign for less. -/
  | less
  deriving DecidableEq, Repr

/-- What an opening angle bracket in front of a goal is used for, or nothing if that is for the
goals behind it. -/
def angleUse? (newLine : Bool) : Goal → Option AngleUse
  | operator .full _ => some .operator
  | operator .binary _ => some .less
  | operator _ _ => some .types
  | statements | optionalOperand | loopClauses _ | operand _ | arrowBody | items _ | key
  | exportDefault => some .operand
  | functionHead | classHead | classMembers | interfaceHead | typeMembers | objectMembers _
  | typeAlias | angles false | arguments false | type | typeItems _ => some .types
  | typeRest named _ => if named && !newLine then some .typesIfClosed else none
  | _ => none

/-- What an opening angle bracket is used for. -/
def angleUse (newLine : Bool) : List Goal → AngleUse
  | [] => .operand
  | g :: gs => (angleUse? newLine g).getD (angleUse newLine gs)

end Goal

end ExpectedDiagnostics.Lexeme
