import ExpectedDiagnostics.Proofs.Message
import ExpectedDiagnostics.Proofs.Record.Grammar

/-!
# The message of a record on one line

A record may write what explains a message as tables or as plain texts. The tables become links of a
chain, and each of them stands apart from what comes before it. The plain texts do not: one of them
runs on, so that the words where the two meet become one, unless there is a blank on either side.

Main results:

* `flat_of_read` — the message of a record on one line, and when it is the texts of the record with
  spaces between them.
* `not_flat_joined` — a record whose texts are run together.
-/

namespace ExpectedDiagnostics.Record

variable {directory : Location} {fields : List (String × Data)} {value : Data} {m : Message}
  {d : Diagnostic}

/-- A chain with a single link says the same as its text. -/
theorem flat_rootMessage (m : Message) : (rootMessage m).flat = m.flat := by
  unfold rootMessage
  split
  · rw [Message.flat_eq, Message.flat_eq]
    rfl
  · rfl

/-- A record says the message that its value stands for. -/
theorem flat_eq_of_read (hvalue : Data.field? fields "message" = some value)
    (hm : StandsFor value m) (h : read directory (.table fields) = .ok d) : d.flat = m.flat := by
  obtain ⟨torn, htorn, rfl⟩ := exists_of_map_eq_ok h
  obtain ⟨other, found, hother, hfound, hmessage⟩ := (readTorn_table_eq_ok_iff.mp htorn).message
  obtain rfl := Option.some.inj (hvalue.symm.trans hother)
  -- what is shown is the message that the value stands for, with its single link made a plain text
  have hshown : torn.shown.message = rootMessage m := by
    rw [StandsFor.eq_reword m hm hfound, rootMessage_reword, ← hmessage]
    rfl
  rw [Diagnostic.flat, hshown, flat_rootMessage]

/-- **The message of a record on one line**: the texts of the record in pre-order, those of tables
with a space in front and plain texts without one. It is all texts with spaces between them exactly
if no plain text runs on from what stands before it. -/
theorem flat_of_read (hvalue : Data.field? fields "message" = some value) (hm : StandsFor value m)
    (h : read directory (.table fields) = .ok d) :
    d.flat = .ofList (Text.collapse (m.heading ++ Message.told m.explanations)) ∧
      (d.flat = .ofList (Text.collapse ([' '].intercalate m.texts)) ↔
        Message.AreApart m.heading m.explanations) := by
  rw [flat_eq_of_read hvalue hm h]
  exact ⟨Message.flat_eq m, Message.flat_eq_joined_iff m⟩

/-- A message that a plain text explains. -/
def runsOn : List (String × Data) :=
  [("code", .int 1), ("message", .table [("messageText", .text "a"), ("next", .list [.text "b"])])]

/-- It stands for a chain with a plain text under it. -/
theorem standsFor_runsOn :
    StandsFor (.table [("messageText", .text "a"), ("next", .list [.text "b"])])
      (.chain "a" [.text "b"]) :=
  .explained ⟨_, rfl, .text "a"⟩ rfl (.cons (.text (.text "b")) .nil)

theorem flat_of_read_runsOn :
    (⟨none, 0, .chain "a" [.text "b"], 1, 0, "error"⟩ : Diagnostic).flat = "ab" :=
  (@flat_of_read .root runsOn _ _ _ rfl standsFor_runsOn rfl).1

/-- So there is a record whose texts are not told with spaces between them. -/
theorem not_flat_joined :
    ¬ ∀ (directory : Location) (fields : List (String × Data)) (value : Data) (m : Message)
      (d : Diagnostic), Data.field? fields "message" = some value → StandsFor value m →
        read directory (.table fields) = .ok d →
          d.flat = .ofList (Text.collapse ([' '].intercalate m.texts)) := by
  intro hall
  have hjoined := hall .root runsOn _ _ _ rfl standsFor_runsOn rfl
  revert hjoined
  decide

end ExpectedDiagnostics.Record
