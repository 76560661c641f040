import ExpectedDiagnostics.Capture
import ExpectedDiagnostics.Proofs.Diagnostic.Torn
import ExpectedDiagnostics.Proofs.Json.RoundTrip
import ExpectedDiagnostics.Proofs.Torn

/-!
# Reading records

The record of a diagnostic has all its fields, and the messages that explain another one under it.
Reading the record gives the diagnostic back: no field is mistaken for another one, and no level of
the message is lost. Written as a document, a list of records is read as the diagnostics.

Main results:

* `readTorn_ofDiagnostic` — the record of a diagnostic is read as the diagnostic.
* `ofRecords_document` — a written list of records is read as the diagnostics.
-/

namespace ExpectedDiagnostics

open Text (Torn piecesOf)

namespace Record

/-! ## Records of diagnostics -/

mutual

/-- The value that stands for a message, given those that stand for its texts. -/
def ofMessageBy {T : Type} (f : T → Data) : Message T → Data
  | .text s => f s
  | .chain head next =>
    .table [("messageText", f head), ("next", .list (ofMessagesBy f next))]

/-- The values that stand for messages. -/
def ofMessagesBy {T : Type} (f : T → Data) : List (Message T) → List Data
  | [] => []
  | m :: ms => ofMessageBy f m :: ofMessagesBy f ms

end

/-- The value that stands for a message. -/
def ofMessage : Message → Data :=
  ofMessageBy .text

/-- The value that stands for a file, if there is one. -/
def ofFile : Option String → Data
  | none => .null
  | some file => .text file

/-- The fields of the record of a diagnostic. -/
def fieldsOf (d : Diagnostic) : List (String × Data) :=
  [("file", ofFile d.file), ("line", .int d.line), ("column", .int d.column),
    ("code", .int d.code), ("category", .text d.category), ("message", ofMessage d.message)]

/-- The record of a diagnostic. -/
def ofDiagnostic (d : Diagnostic) : Data :=
  .table (fieldsOf d)

/-- The document of diagnostics: the list of their records. -/
def document (ds : List Diagnostic) : Data :=
  .list (ds.map ofDiagnostic)

/-! ## Reading them -/

/-- A text is the message that it is. -/
theorem message_eq_text {value : Data} {pieces : Torn} (h : value.pieces? = some pieces) :
    message value = .ok (.text pieces) := by
  cases value with
  | text s =>
    obtain rfl := Option.some.inj h
    rfl
  | torn pieces =>
    obtain rfl := Option.some.inj h
    rfl
  | _ => exact nomatch h

section

variable {T : Type} {f : T → Data} {g : T → Torn}

mutual

theorem message_ofMessageBy (h : ∀ s, (f s).pieces? = some (g s)) (m : Message T) :
    message (ofMessageBy f m) = .ok (m.reword g) := by
  cases m with
  | text s => exact message_eq_text (h s)
  | chain head next =>
    have hnext := messages_ofMessagesBy h next
    simp [ofMessageBy, message, nextField, nextOf, Data.field?, h head, hnext, bind, Except.bind,
      pure, Except.pure, Message.reword]

theorem messages_ofMessagesBy (h : ∀ s, (f s).pieces? = some (g s)) (ms : List (Message T)) :
    messages (ofMessagesBy f ms) = .ok (Message.rewordAll g ms) := by
  cases ms with
  | nil => rfl
  | cons m ms =>
    rw [ofMessagesBy, messages, message_ofMessageBy h m, messages_ofMessagesBy h ms]
    rfl

end

end

theorem message_ofMessage (m : Message) : message (ofMessage m) = .ok (m.reword piecesOf) :=
  message_ofMessageBy (fun _ => rfl) m

theorem message_ofPieces (m : Message Torn) : message (ofMessageBy Data.ofPieces m) = .ok m := by
  rw [message_ofMessageBy Data.pieces?_ofPieces (g := id), Message.reword_id]

/-- A diagnostic that a record can tell of: its file is a canonical path, its numbers are not
negative, and its message is not explained by an empty list. -/
structure Recordable (d : Diagnostic) : Prop where
  file : ∀ file, d.file = some file → ∃ place : Location, place.IsCanonical ∧ file = place.toString
  line : 0 ≤ d.line
  column : 0 ≤ d.column
  code : 0 ≤ d.code
  explained : ∀ head, d.message ≠ .chain head []

theorem numberField_of_nonneg {fields : List (String × Data)} {name : String} {n : Int}
    (hfield : Data.field? fields name = some (.int n)) (hn : 0 ≤ n) (default : Option Int) :
    numberField fields name default = .ok n := by
  unfold numberField
  rw [hfield]
  exact if_neg (Int.not_lt.mpr hn)

theorem rootMessage_eq {T : Type} {m : Message T} (h : ∀ head, m ≠ .chain head []) :
    rootMessage m = m := by
  unfold rootMessage
  split
  · exact absurd rfl (h _)
  · rfl

/-- Explaining texts are reworded as well, so a message is explained by an empty list if it was. -/
theorem rootMessage_reword {T U : Type} (f : T → U) (m : Message T) :
    rootMessage (m.reword f) = (rootMessage m).reword f := by
  cases m with
  | text s => rfl
  | chain head next =>
    cases next with
    | nil => rfl
    | cons first others => rfl

/-- **The record of a diagnostic is read as the diagnostic**, from any directory. -/
theorem readTorn_ofDiagnostic {d : Diagnostic} (h : Recordable d) (directory : Location) :
    readTorn directory (ofDiagnostic d) = .ok (d.reword piecesOf) := by
  have hfile : fileField (fieldsOf d) = .ok (d.file.map piecesOf) := by
    unfold fileField
    cases hfile : d.file with
    | none => simp [fieldsOf, Data.field?, hfile, ofFile]
    | some file => simp [fieldsOf, Data.field?, hfile, ofFile, Data.pieces?]
  have hplace : resolveFile directory (d.file.map piecesOf) = .ok (d.file.map piecesOf) := by
    cases hfile : d.file with
    | none => rfl
    | some file =>
      obtain ⟨place, hplace, rfl⟩ := h.file file hfile
      rw [Option.map_some, resolveFile,
        Path.resolveTorn_piecesOf (Path.resolve_toString_of_isCanonical hplace directory)]
      rfl
  have hmessage : message ((Data.field? (fieldsOf d) "message").getD .null) =
      .ok (d.message.reword piecesOf) := message_ofMessage d.message
  have hline : ∀ default, numberField (fieldsOf d) "line" default = .ok d.line :=
    numberField_of_nonneg rfl h.line
  have hcode : numberField (fieldsOf d) "code" none = .ok d.code :=
    numberField_of_nonneg rfl h.code _
  have hcolumn : numberField (fieldsOf d) "column" (some 0) = .ok d.column :=
    numberField_of_nonneg rfl h.column _
  have hcategory : categoryField (fieldsOf d) = piecesOf d.category := rfl
  unfold ofDiagnostic readTorn
  simp only [hfile, hmessage, hplace, hline, hcode, hcolumn, hcategory, bind, Except.bind]
  rw [rootMessage_reword, rootMessage_eq h.explained]
  rfl

/-! ## Documents of records -/

mutual

theorem isPlain_ofMessage (m : Message) : Json.IsPlain (ofMessage m) := by
  cases m with
  | text s => exact trivial
  | chain head next =>
    have hnames : ["messageText", "next"].Nodup := by decide
    exact ⟨hnames, trivial, arePlainItems_ofMessagesBy next, trivial⟩

theorem arePlainItems_ofMessagesBy (ms : List Message) :
    Json.ArePlainItems (ofMessagesBy .text ms) := by
  cases ms with
  | nil => exact trivial
  | cons m ms => exact ⟨isPlain_ofMessage m, arePlainItems_ofMessagesBy ms⟩

end

theorem isPlain_ofDiagnostic (d : Diagnostic) : Json.IsPlain (ofDiagnostic d) := by
  have hnames : ((fieldsOf d).map (·.1)).Nodup := by
    show ["file", "line", "column", "code", "category", "message"].Nodup
    decide
  have hfile : Json.IsPlain (ofFile d.file) := by
    cases d.file with
    | none => exact trivial
    | some file => exact trivial
  exact ⟨hnames, hfile, trivial, trivial, trivial, trivial, isPlain_ofMessage d.message, trivial⟩

theorem isPlain_document (ds : List Diagnostic) : Json.IsPlain (document ds) := by
  unfold document Json.IsPlain
  induction ds with
  | nil => exact trivial
  | cons d ds ih => exact ⟨isPlain_ofDiagnostic d, ih⟩

theorem readRecords_map {ds : List Diagnostic} (h : ∀ d ∈ ds, Recordable d) (directory : Location)
    (number : Nat) : Capture.readRecords directory number (ds.map ofDiagnostic) =
      .ok (ds.map (Diagnostic.reword piecesOf)) := by
  induction ds generalizing number with
  | nil => rfl
  | cons d ds ih =>
    have hd := readTorn_ofDiagnostic (h d List.mem_cons_self) directory
    have hds := ih (fun e he => h e (List.mem_cons_of_mem _ he)) (number + 1)
    rw [List.map_cons, Capture.readRecords, hd]
    dsimp only
    rw [hds]
    rfl

/-- A written list of records is read as the diagnostics, from any directory. -/
theorem ofRecords_document {ds : List Diagnostic} (h : ∀ d ∈ ds, Recordable d)
    (directory : Location) :
    Capture.ofRecords directory (Json.compact (document ds)).toList =
      .ok (ds.map (Diagnostic.reword piecesOf)) := by
  have hread := Json.read_compact (isPlain_document ds)
  unfold Capture.ofRecords
  rw [hread]
  dsimp only [document]
  rw [readRecords_map h]

end Record

end ExpectedDiagnostics
