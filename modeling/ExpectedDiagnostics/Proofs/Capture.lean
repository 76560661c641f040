import ExpectedDiagnostics.Proofs.Listing.RoundTrip
import ExpectedDiagnostics.Proofs.Record
import ExpectedDiagnostics.Proofs.Utf8

/-!
# Captured diagnostics

What is written down in either form is collected as it was meant: the diagnostics of a document of
records, and those of a listing, in order and without repetitions. Neither form has a carriage
return in it, so nothing changes when the line ends of a file are unified.

Main results:

* `collect_records`, `collect_listing` — what a capture of diagnostics is collected as.
-/

namespace ExpectedDiagnostics

theorem Text.unifyLineEnds_of_not_mem {cs : List Char} (h : '\r' ∉ cs) : unifyLineEnds cs = cs := by
  induction cs with
  | nil => rfl
  | cons c cs ih =>
    rw [List.mem_cons, not_or] at h
    have hc : c ≠ '\r' := fun heq => h.1 heq.symm
    rw [unifyLineEnds, ih h.2]
    · intro rest heq _
      exact hc heq
    · exact hc

/-- A printed listing has no other line end than the line feed. -/
theorem Listing.return_not_mem_print {ds : List Diagnostic} (h : ∀ d ∈ ds, Printable d) :
    '\r' ∉ (print ds).toList := by
  have hline : ∀ l ∈ ds.flatMap diagnosticLines, '\r' ∉ l.toList := by
    intro l hl hmem
    obtain ⟨d, hd, hl⟩ := List.mem_flatMap.mp hl
    have hend := ((h d hd).oneLine_diagnosticLines l hl).1 '\r' hmem
    exact absurd hend (by decide)
  unfold print
  generalize ds.flatMap diagnosticLines = lines at hline
  induction lines with
  | nil => exact List.not_mem_nil
  | cons line lines ih =>
    have hfirst := hline line List.mem_cons_self
    have hrest := ih fun l hl => hline l (List.mem_cons_of_mem _ hl)
    cases lines with
    | nil => rwa [String.intercalate_singleton]
    | cons next lines =>
      rw [String.intercalate_cons_cons, String.toList_append, String.toList_append, List.mem_append,
        List.mem_append, not_or, not_or]
      exact ⟨⟨hfirst, by decide⟩, hrest⟩

theorem Json.return_not_mem_compact {v : Data} (h : IsPlain v) : '\r' ∉ (compact v).toList :=
  fun hmem => absurd (arePrintable_compact h _ hmem) (by decide)

/-- What can be printed can be told of in a record. -/
theorem Listing.Printable.recordable {d : Diagnostic} (h : Printable d) : Record.Recordable d where
  file file hfile := (h.file file hfile).1
  line := h.line
  column := h.column
  code := h.code
  explained head hmessage := (h.explained head [] hmessage).1 rfl

/-- The octets of a text without carriage returns are read as the text. -/
theorem Workspace.readText_of_readOctets {w : Workspace} {p : Path} {text : List Char}
    (h : w.readOctets p = .ok (Utf8.encode text)) (hreturn : '\r' ∉ text) :
    w.readText p = .ok text := by
  have htext : Workspace.textOf (Utf8.encode text) = .ok text := by
    unfold Workspace.textOf
    rw [Utf8.decode_encode]
    exact congrArg Except.ok (Text.unifyLineEnds_of_not_mem hreturn)
  unfold Workspace.readText
  rw [h]
  show (Workspace.textOf (Utf8.encode text)).mapError _ = _
  rw [htext]
  rfl

namespace Capture

variable {c : Capture} {w : Workspace} {ds : List Diagnostic}

/-- A text is where a capture says: on the standard input, or in a file in the octets of UTF-8. -/
def Holds (c : Capture) (w : Workspace) (text : String) : Prop :=
  if c.path.toString == "-" then w.input = text
  else w.readOctets c.path = .ok (Utf8.encode text.toList)

theorem text_of_holds {text : String} (h : c.Holds w text) (hreturn : '\r' ∉ text.toList) :
    c.text w = .ok text.toList := by
  unfold Holds at h
  unfold Capture.text
  split at h
  · rename_i hinput
    rw [if_pos hinput, h]
  · rename_i hfile
    rw [if_neg hfile, Workspace.readText_of_readOctets h hreturn]

/-- **Records are collected as the diagnostics they tell of.** -/
theorem collect_records (hform : c.form = .records)
    (hholds : c.Holds w (Json.compact (Record.document ds)))
    (h : ∀ d ∈ ds, Record.Recordable d) : c.collect w = .ok (Diagnostic.tidy ds) := by
  have htext := text_of_holds hholds (Json.return_not_mem_compact (Record.isPlain_document ds))
  unfold collect
  rw [htext]
  show c.diagnosticsOf _ _ = _
  unfold diagnosticsOf
  rw [hform]
  dsimp only
  -- texts that are whole have no halves to tell them apart by
  rw [Record.ofRecords_document h, ← Diagnostic.shown_tidy_reword]
  rfl

/-- **A listing is collected as the diagnostics it was printed for.** -/
theorem collect_listing (hform : c.form = .listing) (hholds : c.Holds w (Listing.print ds))
    (h : ∀ d ∈ ds, Listing.Printable d) : c.collect w = .ok (Diagnostic.tidy ds) := by
  have htext := text_of_holds hholds (Listing.return_not_mem_print h)
  unfold collect
  rw [htext]
  show c.diagnosticsOf _ _ = _
  unfold diagnosticsOf
  rw [hform]
  dsimp only
  rw [Listing.read_of_splitLines h (Listing.splitLines_print h)]
  rfl

end Capture

end ExpectedDiagnostics
