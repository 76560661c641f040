import ExpectedDiagnostics.Diagnostic
import ExpectedDiagnostics.Text.Torn

/-!
# Torn diagnostics

Diagnostics whose texts may be torn. They are told on one line, put in order and rid of repetitions
as others are, with all their halves; only then are they shown.
-/

namespace ExpectedDiagnostics

open Text (Torn piecesOf shownPieces collapsePieces)

instance : Wording Torn where
  ofString := piecesOf
  collapse := collapsePieces

namespace Message

variable {T U : Type}

mutual

/-- A message with other texts in place of its own. -/
def reword (f : T → U) : Message T → Message U
  | text s => .text (f s)
  | chain head next => .chain (f head) (rewordAll f next)

/-- Messages with other texts in place of their own. -/
def rewordAll (f : T → U) : List (Message T) → List (Message U)
  | [] => []
  | m :: ms => reword f m :: rewordAll f ms

end

end Message

namespace Diagnostic

/-- A diagnostic with other texts in place of its own. -/
def reword {T U : Type} (f : T → U) (d : Diagnostic T) : Diagnostic U where
  file := d.file.map f
  line := d.line
  message := d.message.reword f
  code := d.code
  column := d.column
  category := f d.category

/-- A torn diagnostic as it is shown. -/
def shown : Diagnostic Torn → Diagnostic :=
  reword shownPieces

end Diagnostic

end ExpectedDiagnostics
