import ExpectedDiagnostics.Message

/-!
# Diagnostics

What a type checker reports: a message with a code, at a place in a file or without one. Lines and
columns count from zero.

Diagnostics have an order: by file, line, column, code and message. Putting them in this order
(`sort`) is stable, and `tidy` then drops each one that says the same as the one before it.
-/

namespace ExpectedDiagnostics

/-- One report of the type checker. A report about the whole program has no file. -/
structure Diagnostic (T : Type := String) where
  file : Option T
  line : Int
  message : Message T
  code : Int
  column : Int
  category : T
  deriving Repr

namespace Diagnostic

/-- The message on one line. -/
def flat (d : Diagnostic) : String :=
  d.message.flat

/-- How a diagnostic is shown: the message on one line, and the code. -/
def display (d : Diagnostic) : String :=
  d.flat ++ " (" ++ toString d.code ++ ")"

/-! ## Order -/

/-- What decides the order of diagnostics. -/
structure Key (T : Type := String) where
  file : T
  line : Int
  column : Int
  code : Int
  text : T
  deriving DecidableEq, Repr

variable {T : Type} [Ord T]

/-- The order of keys: by their parts, from the file on. -/
def Key.order : Key T → Key T → Ordering :=
  compareLex (compareOn Key.file) <|
    compareLex (compareOn Key.line) <|
      compareLex (compareOn Key.column) <|
        compareLex (compareOn Key.code) (compareOn Key.text)

/-- Tells whether a key is not after another one. -/
def Key.le (a b : Key T) : Bool :=
  (Key.order a b).isLE

variable [Wording T]

/-- The key of a diagnostic. A diagnostic without a file counts as one of the empty file name. -/
def key (d : Diagnostic T) : Key T :=
  ⟨d.file.getD (Wording.ofString ""), d.line, d.column, d.code, d.message.flat⟩

/-- Puts diagnostics in order. Those with equal keys keep their order. -/
def sort (ds : List (Diagnostic T)) : List (Diagnostic T) :=
  ds.mergeSort fun a b => a.key.le b.key

variable [DecidableEq T]

/-- Tells whether two diagnostics say the same. -/
def saysSame (a b : Diagnostic T) : Bool :=
  a.key == b.key && a.category == b.category

/-- Drops each diagnostic that says the same as the last one kept. -/
def dropRepeats (last : Option (Diagnostic T)) : List (Diagnostic T) → List (Diagnostic T)
  | [] => []
  | d :: ds =>
    if last.any (saysSame · d) then dropRepeats last ds
    else d :: dropRepeats (some d) ds

/-- Diagnostics in order, without neighbours that say the same. -/
def tidy (ds : List (Diagnostic T)) : List (Diagnostic T) :=
  dropRepeats none (sort ds)

end Diagnostic

end ExpectedDiagnostics
