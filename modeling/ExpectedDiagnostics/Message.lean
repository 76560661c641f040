import ExpectedDiagnostics.Text.Blank

/-!
# Messages

The message of a diagnostic: a plain text, or a text with further messages that explain it. It is
printed with each explanation on a line of its own, two spaces further in than what it explains;
a plain text among the explanations is put where it stands, without a line of its own.
-/

namespace ExpectedDiagnostics

/-- A message of the type checker. -/
inductive Message (T : Type := String)
  | text (s : T)
  | chain (head : T) (next : List (Message T))
  deriving Inhabited, Repr

/-- Texts that messages are worded in. They can be put together, and told on one line. -/
class Wording (T : Type) extends Append T where
  /-- The text with these characters. -/
  ofString : String → T
  /-- The text with a single space for each run of blanks. -/
  collapse : T → T

instance : Wording String where
  ofString s := s
  collapse s := .ofList (Text.collapse s.toList)

theorem Wording.ofString_eq (s : String) : Wording.ofString s = s := rfl

theorem Wording.collapse_eq (s : String) :
    Wording.collapse s = .ofList (Text.collapse s.toList) := rfl

namespace Message

/-- What separates a link of a chain from what comes before it: nothing at indentation zero, else
a line end and two spaces per level. -/
def separator (lineEnd : String) (indent : Int) : String :=
  if indent == 0 then "" else lineEnd ++ .ofList (List.replicate (2 * indent.toNat) ' ')

variable {T : Type} [Wording T]

mutual

/-- The text of a message that stands at a level of indentation. -/
def flatten (lineEnd : String) (indent : Int) : Message T → T
  | text s => s
  | chain head next =>
    Wording.ofString (separator lineEnd indent) ++ head ++ flattenAll lineEnd (indent + 1) next

/-- The texts of messages that stand at one level of indentation. -/
def flattenAll (lineEnd : String) (indent : Int) : List (Message T) → T
  | [] => Wording.ofString ""
  | m :: ms => flatten lineEnd indent m ++ flattenAll lineEnd indent ms

end

/-- The text of a message on one line: every run of blanks is one space. -/
def flat (m : Message T) : T :=
  Wording.collapse (m.flatten "\n" 0)

end Message

end ExpectedDiagnostics
