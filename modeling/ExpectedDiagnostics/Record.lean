import ExpectedDiagnostics.Data
import ExpectedDiagnostics.Diagnostic.Torn
import ExpectedDiagnostics.Path.Torn

/-!
# Records

Diagnostics as tables of a document: `file`, `line`, `code`, `column`, `category` and `message`,
which is a text or a table of `messageText` and `next`. Lines and columns count from zero.
-/

namespace ExpectedDiagnostics.Record

open Text (Torn piecesOf)

/-- Why a value is no record of a diagnostic. -/
inductive Fault
  | notTable
  | fileShape
  | messageShape
  | nextShape
  | unresolved (f : Path.TornFault)
  | number (name : String)
  deriving DecidableEq, Repr

/-- The wording of a fault. -/
def Fault.message : Fault → String
  | notTable => "entry must be an object"
  | fileShape => "'file' must be a string or null"
  | messageShape => "message must be a string or an object with 'messageText'"
  | nextShape => "'next' must be a list"
  | unresolved f => f.message
  | number name => "'" ++ name ++ "' must be a non-negative integer"

/-! ## Messages -/

mutual

/-- The message that a value stands for. -/
def message : Data → Except Fault (Message Torn)
  | .text s => .ok (.text (piecesOf s))
  | .torn pieces => .ok (.text pieces)
  | .table fields =>
    match (Data.field? fields "messageText").bind Data.pieces? with
    | some head => do
      let next ← nextField fields
      return .chain head next
    | none => .error .messageShape
  | _ => .error .messageShape

/-- The messages in the field `next` of a table. -/
def nextField : List (String × Data) → Except Fault (List (Message Torn))
  | [] => .ok []
  | (name, value) :: fields => if name == "next" then nextOf value else nextField fields

/-- The messages that a value of `next` stands for; a value that counts as nothing stands for
none. -/
def nextOf : Data → Except Fault (List (Message Torn))
  | .list items => messages items
  | value => if value.isFalsy then .ok [] else .error .nextShape

/-- The messages of a list. -/
def messages : List Data → Except Fault (List (Message Torn))
  | [] => .ok []
  | item :: items => do
    let m ← message item
    let ms ← messages items
    return m :: ms

end

/-- The message of a diagnostic: a chain with a single link is a plain text. -/
def rootMessage {T : Type} : Message T → Message T
  | .chain head [] => .text head
  | m => m

/-! ## Diagnostics -/

/-- The file of a record. -/
def fileField (fields : List (String × Data)) : Except Fault (Option Torn) :=
  match Data.field? fields "file" with
  | none | some .null => .ok none
  | some value =>
    match value.pieces? with
    | some pieces => .ok (some pieces)
    | none => .error .fileShape

/-- Resolves the file of a record, if it has one. -/
def resolveFile (directory : Location) : Option Torn → Except Fault (Option Torn)
  | none => .ok none
  | some pieces => ((Path.resolveTorn directory pieces).map some).mapError .unresolved

/-- A number of a record that is not negative. A field that is missing has the default. -/
def numberField (fields : List (String × Data)) (name : String) (default : Option Int) :
    Except Fault Int :=
  match Data.field? fields name with
  | some (.int n) => if n < 0 then .error (.number name) else .ok n
  | some _ => .error (.number name)
  | none =>
    match default with
    | some n => .ok n
    | none => .error (.number name)

/-- The category of a record. -/
def categoryField (fields : List (String × Data)) : Torn :=
  match Data.field? fields "category" with
  | none => piecesOf "error"
  | some value => value.pieces?.getD (piecesOf value.display)

/-- The diagnostic that a value is the record of, with all halves of its texts; its file is seen
from a directory. A line may only be missing where there is no file. -/
def readTorn (directory : Location) : Data → Except Fault (Diagnostic Torn)
  | .table fields => do
    let file ← fileField fields
    let message ← message ((Data.field? fields "message").getD .null)
    let place ← resolveFile directory file
    let line ← numberField fields "line" (if file.isNone then some 0 else none)
    let code ← numberField fields "code" none
    let column ← numberField fields "column" (some 0)
    return {
      file := place
      line, code, column
      message := rootMessage message
      category := categoryField fields }
  | _ => .error .notTable

/-- The diagnostic that a value is the record of, as it is shown. -/
def read (directory : Location) (item : Data) : Except Fault Diagnostic :=
  (readTorn directory item).map Diagnostic.shown

end ExpectedDiagnostics.Record
