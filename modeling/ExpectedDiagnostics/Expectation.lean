import ExpectedDiagnostics.Problem
import ExpectedDiagnostics.Text.Blank
import ExpectedDiagnostics.Text.Digit

/-!
# Expectations

What an annotation says about the diagnostic on its line: a message, a code, or both. The code
stands at the end of the annotation, in parentheses. A message that ends in `[...]` only says how
the message begins.

`parse` reads the text of an annotation and `toString` writes it.
-/

namespace ExpectedDiagnostics

/-- An expected message, an expected code, or both. What is absent matches anything. -/
structure Expectation where
  message : Option String
  code : Option Int
  says_something : message.isSome ∨ code.isSome
  deriving DecidableEq

namespace Expectation

/-! ## Reading -/

/-- Tells whether a character is one of the digits that codes are written with. -/
def isCodeDigit (c : Char) : Bool :=
  '0' ≤ c && c ≤ '9'

/-- Cuts the code off the end of a text: digits in parentheses, with nothing but blanks after
them. -/
def splitCode? (cs : List Char) : Option (List Char × Nat) :=
  match (Text.stripRight cs).reverse with
  | ')' :: reversed =>
    match reversed.takeWhile isCodeDigit, reversed.dropWhile isCodeDigit with
    | [], _ => none
    | digits, '(' :: before => some (before.reverse, Text.number digits.reverse)
    | _, _ => none
  | _ => none

/-- The message of an annotation, by its text without the code. A blank text is no message. -/
def messageOf (cs : List Char) : Option String :=
  match Text.tidy cs with
  | [] => none
  | message => some (.ofList message)

/-- Reads the text of an annotation. -/
def parse (text : String) : Except Problem Expectation :=
  match splitCode? text.toList with
  | some (before, n) => .ok ⟨messageOf before, some n, .inr rfl⟩
  | none =>
    match messageOf text.toList with
    | some m => .ok ⟨some m, none, .inl rfl⟩
    | none => .error (.blankExpectation text Problem.blankReason none)

/-- The expectation with these parts. -/
def ofParts (message : Option String) (code : Option Int) : Except Problem Expectation :=
  if h : message.isSome ∨ code.isSome then .ok ⟨message, code, h⟩
  else .error (.blankExpectation "" Problem.blankReason none)

/-! ## Writing -/

/-- The text of an expectation. -/
def toString (e : Expectation) : String :=
  String.intercalate " " (e.message.toList ++ e.code.toList.map fun n => s!"({n})")

instance : ToString Expectation := ⟨Expectation.toString⟩

/-! ## Matching -/

/-- What a message ends in that only says how the message begins. -/
def ellipsis : List Char :=
  ['[', '.', '.', '.', ']']

/-- The beginning that an ellipsis stands after, without the blanks in between. -/
def beginning? (message : String) : Option String :=
  let cs := message.toList
  if ellipsis.isSuffixOf cs then
    some (.ofList (Text.stripRight (cs.take (cs.length - ellipsis.length))))
  else none

/-- The beginning that the message of an expectation asks for. -/
def opening? (e : Expectation) : Option String :=
  e.message.bind beginning?

/-- Tells whether an actual message is what an expected one asks for. -/
def messageFits (expected actual : String) : Bool :=
  match beginning? expected with
  | some opening => opening.toList.isPrefixOf actual.toList
  | none => expected == actual

/-- Tells whether a message and a code are what the expectation asks for. -/
def accepts (e : Expectation) (message : String) (code : Option Int) : Bool :=
  (e.code.isNone || e.code == code) && e.message.all (messageFits · message)

end Expectation

end ExpectedDiagnostics
