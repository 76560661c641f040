import ExpectedDiagnostics.Listing.Printer
import ExpectedDiagnostics.Proofs.Canonical
import ExpectedDiagnostics.Proofs.Listing.Blocks

/-!
# Reading what was printed

Printing diagnostics as a listing loses nothing: reading the listing gives the same diagnostics,
seen from whatever directory. What is asked of the diagnostics is that their texts stay on one line
each and cannot be taken for something else (`Printable`).

Main results:

* `forest_outlines` — messages are known by the order and the depths of their texts.
* `read_of_splitLines` — the printed lines are read as the diagnostics.
* `read_print` — reading undoes printing.
-/

namespace ExpectedDiagnostics

namespace Listing

/-! ## Messages as outlines -/

mutual

/-- The texts of a message that stands at a depth, each with its own depth, from the first line to
the last. -/
def outline (depth : Nat) : Message → List (Nat × List Char)
  | .text s => [(depth, s.toList)]
  | .chain head next => (depth, head.toList) :: outlines (depth + 1) next

/-- The texts of messages that stand at one depth. -/
def outlines (depth : Nat) : List Message → List (Nat × List Char)
  | [] => []
  | m :: ms => outline depth m ++ outlines depth ms

end

/-- A text that can stand on a line of its own under a header. -/
structure IsLineText (cs : List Char) : Prop where
  oneLine : Text.OneLine cs
  unpadded : Unpadded cs
  markFree : MarkFree cs

instance (cs : List Char) : Decidable (IsLineText cs) :=
  decidable_of_iff (Text.OneLine cs ∧ Unpadded cs ∧ MarkFree cs)
    ⟨fun h => ⟨h.1, h.2.1, h.2.2⟩, fun h => ⟨h.oneLine, h.unpadded, h.markFree⟩⟩

mutual

/-- A message that explains another one, printed: a link with a text of its own, and explained by
such messages. -/
def IsExplanation : Message → Prop
  | .text _ => False
  | .chain head next => IsLineText head.toList ∧ AreExplanations next

def AreExplanations : List Message → Prop
  | [] => True
  | m :: ms => IsExplanation m ∧ AreExplanations ms

end

/-- The line of a text at a depth. -/
def indent (e : Nat × List Char) : List Char :=
  List.replicate (2 * e.1) ' ' ++ e.2

mutual

theorem toList_explanation (depth : Nat) (m : Message) :
    (explanation depth m).map (·.toList) = (outline depth m).map indent := by
  cases m with
  | text s => simp [explanation, outline, indent]
  | chain head next =>
    have hnext := toList_explanations (depth + 1) next
    simp [explanation, outline, indent, hnext]

theorem toList_explanations (depth : Nat) (ms : List Message) :
    (explanations depth ms).map (·.toList) = (outlines depth ms).map indent := by
  cases ms with
  | nil => rfl
  | cons m ms =>
    rw [explanations, outlines, List.map_append, List.map_append, toList_explanation depth m,
      toList_explanations depth ms]

end

mutual

/-- What an explanation prints stands at its depth or further in, each text on a line of its own. -/
theorem of_mem_outline {depth : Nat} {m : Message} (h : IsExplanation m) :
    ∀ e ∈ outline depth m, depth ≤ e.1 ∧ IsLineText e.2 := by
  cases m with
  | text s => exact h.elim
  | chain head next =>
    intro e he
    rcases List.mem_cons.mp he with rfl | he
    · exact ⟨Nat.le_refl _, h.1⟩
    · obtain ⟨hdepth, htext⟩ := of_mem_outlines h.2 e he
      exact ⟨by omega, htext⟩

theorem of_mem_outlines {depth : Nat} {ms : List Message} (h : AreExplanations ms) :
    ∀ e ∈ outlines depth ms, depth ≤ e.1 ∧ IsLineText e.2 := by
  cases ms with
  | nil => exact fun e he => absurd he List.not_mem_nil
  | cons m ms =>
    intro e he
    rcases List.mem_append.mp he with he | he
    · exact of_mem_outline h.1 e he
    · exact of_mem_outlines h.2 e he

end

theorem head?_outlines {depth : Nat} {ms : List Message} :
    ∀ e ∈ (outlines depth ms).head?, e.1 = depth := by
  intro e he
  match ms with
  | [] => exact absurd he (by simp [outlines])
  | .text s :: ms =>
    obtain rfl := Option.some.inj he
    rfl
  | .chain head next :: ms =>
    obtain rfl := Option.some.inj he
    rfl

/-- Messages are known by the order and the depths of their texts: below a text comes all that
explains it, up to the next one that is as far to the left. -/
theorem forest_outlines (depth : Nat) : ∀ {ms : List Message}, AreExplanations ms →
    forest (outlines depth ms) = ms
  | [], _ => by rw [outlines, forest]
  | .text s :: ms, h => h.1.elim
  | .chain head next :: ms, h => by
    have hbelow : ∀ e ∈ outlines (depth + 1) next, decide (depth < e.1) = true := by
      intro e he
      exact decide_eq_true (of_mem_outlines h.1.2 e he).1
    have hbeside : ∀ e ∈ (outlines depth ms).head?, decide (depth < e.1) = false := by
      intro e he
      rw [head?_outlines e he]
      exact decide_eq_false (Nat.lt_irrefl _)
    obtain ⟨htake, hdrop⟩ := Text.takeWhile_append_stop hbelow hbeside
    rw [outlines, outline, List.cons_append, forest, htake, hdrop, forest_outlines _ h.1.2,
      forest_outlines _ h.2, String.ofList_toList]

/-! ## Blocks of lines -/

/-- A diagnostic that can be printed: all its texts, the path of its file among them, stay on one
line each, and its header and what explains it are told from one another. -/
structure Printable (d : Diagnostic) : Prop where
  category : d.category ∈ categories
  line : 0 ≤ d.line
  column : 0 ≤ d.column
  code : 0 ≤ d.code
  /-- The file is a canonical path, which stays on its line and has no mark in it. -/
  file : ∀ file, d.file = some file →
    (∃ place : Location, place.IsCanonical ∧ file = place.toString) ∧
      Text.OneLine file.toList ∧ MarkFree file.toList
  /-- Without a file there is no place in it, and the message has no mark that could be taken for
  one. -/
  noFile : d.file = none → d.line = 0 ∧ d.column = 0 ∧ MarkFree (linesOf d.message).1.toList
  oneLine : Text.OneLine (linesOf d.message).1.toList
  /-- A message that is no plain text is explained by at least one other one. -/
  explained : ∀ head next, d.message = .chain head next → next ≠ [] ∧ AreExplanations next

/-- What explains the message of a diagnostic. -/
def explainedBy (d : Diagnostic) : List Message :=
  match d.message with
  | .text _ => []
  | .chain _ next => next

theorem Printable.areExplanations {d : Diagnostic} (h : Printable d) :
    AreExplanations (explainedBy d) := by
  have hexplained := h.explained
  unfold explainedBy
  cases hmessage : d.message with
  | text s => exact trivial
  | chain head next => exact (hexplained head next hmessage).2

theorem Printable.messageOf_eq {d : Diagnostic} (h : Printable d) :
    messageOf (linesOf d.message).1.toList (explainedBy d) = d.message := by
  have hexplained := h.explained
  unfold explainedBy
  cases hmessage : d.message with
  | text s => simp [linesOf, messageOf]
  | chain head next =>
    obtain ⟨n, ns, rfl⟩ := List.exists_cons_of_ne_nil (hexplained head next hmessage).1
    simp [linesOf, messageOf]

/-! ## Printed headers -/

theorem toList_opening_file (file : String) (line column code : Nat) (message : Message)
    (category : String) :
    (opening ⟨some file, line, message, code, column, category⟩).toList =
      file.toList ++ markText (Nat.toDigits 10 (line + 1)) (Nat.toDigits 10 (column + 1)) category
        (Nat.toDigits 10 code) := by
  have hnext : ∀ n : Nat, (n : Int) + 1 = ((n + 1 : Nat) : Int) := fun n => rfl
  simp only [opening, String.toList_append, hnext, toList_toString_natCast, markText, statementText,
    List.append_assoc]
  rfl

theorem toList_opening_global (line column code : Nat) (message : Message) (category : String) :
    (opening ⟨none, line, message, code, column, category⟩).toList =
      statementText category (Nat.toDigits 10 code) := by
  simp only [opening, String.toList_append, toList_toString_natCast, statementText,
    List.append_assoc]
  rfl

/-- The header line of a diagnostic is read as one, and gives the diagnostic back with what explains
it. -/
theorem Printable.exists_header {d : Diagnostic} (h : Printable d) (directory : Location) :
    ∃ header, Line.ofText (opening d ++ (linesOf d.message).1).toList = .header header ∧
      header.toDiagnostic directory (explainedBy d) = .ok d := by
  have hmessage := h.messageOf_eq
  obtain ⟨file, line, message, code, column, category⟩ := d
  obtain ⟨line, rfl⟩ := Int.eq_ofNat_of_zero_le h.line
  obtain ⟨column, rfl⟩ := Int.eq_ofNat_of_zero_le h.column
  obtain ⟨code, rfl⟩ := Int.eq_ofNat_of_zero_le h.code
  rw [String.toList_append]
  cases file with
  | none =>
    obtain ⟨hline, hcolumn, hfree⟩ := h.noFile rfl
    rw [toList_opening_global, ofText_globalHeader h.category code hfree]
    refine ⟨_, rfl, ?_⟩
    unfold Header.toDiagnostic
    dsimp only at hline hcolumn hmessage ⊢
    rw [hmessage, hline, hcolumn]
  | some file =>
    obtain ⟨⟨place, hplace, hcanonical⟩, -, hfree⟩ := h.file file rfl
    have hne : file.toList ≠ [] := by
      rw [hcanonical, Path.toList_toString]
      exact List.cons_ne_nil _ _
    rw [toList_opening_file, List.append_assoc,
      ofText_fileHeader h.category (line + 1) (column + 1) code _ hne hfree]
    refine ⟨_, rfl, ?_⟩
    have hresolve := Path.resolve_toString_of_isCanonical hplace directory
    unfold Header.toDiagnostic
    dsimp only at hmessage ⊢
    rw [hmessage, String.ofList_toList, hcanonical, hresolve]
    simp [bind, Except.bind, pure, Except.pure]

/-! ## Printed lines -/

theorem diagnosticLines_eq (d : Diagnostic) :
    diagnosticLines d =
      (opening d ++ (linesOf d.message).1) :: explanations 1 (explainedBy d) := by
  unfold diagnosticLines linesOf explainedBy
  cases d.message with
  | text s => rfl
  | chain head next => rfl

theorem oneLine_statementText {category : String} (hcategory : category ∈ categories) (code : Nat) :
    Text.OneLine (statementText category (Nat.toDigits 10 code)) := by
  have hword : Text.OneLine category.toList := by
    revert category
    decide
  have hspace : Text.OneLine [' ', 'T', 'S'] := by decide
  have hend : Text.OneLine [':', ' '] := by decide
  exact hword.append (hspace.append ((Text.oneLine_toDigits code).append hend))

theorem Printable.oneLine_opening {d : Diagnostic} (h : Printable d) :
    Text.OneLine (opening d).toList := by
  obtain ⟨file, line, message, code, column, category⟩ := d
  obtain ⟨line, rfl⟩ := Int.eq_ofNat_of_zero_le h.line
  obtain ⟨column, rfl⟩ := Int.eq_ofNat_of_zero_le h.column
  obtain ⟨code, rfl⟩ := Int.eq_ofNat_of_zero_le h.code
  have hstatement := oneLine_statementText h.category code
  cases file with
  | none =>
    rw [toList_opening_global]
    exact hstatement
  | some file =>
    have hclose : Text.OneLine [')', ':', ' '] := by decide
    rw [toList_opening_file]
    refine (h.file file rfl).2.1.append (.cons (by decide) ((Text.oneLine_toDigits _).append ?_))
    exact .cons (by decide) ((Text.oneLine_toDigits _).append (hclose.append hstatement))

/-- What is printed for a diagnostic stays on the lines it was printed on. -/
theorem Printable.oneLine_diagnosticLines {d : Diagnostic} (h : Printable d) :
    ∀ l ∈ diagnosticLines d, Text.OneLine l.toList ∧ l ≠ "" := by
  intro l hl
  rw [diagnosticLines_eq] at hl
  rcases List.mem_cons.mp hl with rfl | hl
  · have hopening := h.oneLine_opening
    constructor
    · rw [String.toList_append]
      exact hopening.append h.oneLine
    · -- there is a colon in it
      intro hempty
      have hlist := congrArg String.toList hempty
      simp [opening] at hlist
  · have hmem := List.mem_map_of_mem (f := (·.toList)) hl
    rw [toList_explanations] at hmem
    obtain ⟨e, he, hindent⟩ := List.mem_map.mp hmem
    obtain ⟨-, htext⟩ := of_mem_outlines h.areExplanations e he
    constructor
    · rw [← hindent]
      refine Text.OneLine.append ?_ htext.oneLine
      intro c hc
      rw [List.eq_of_mem_replicate hc]
      decide
    · rintro rfl
      exact htext.unpadded.nonempty (List.append_eq_nil_iff.mp hindent).2

/-! ## Reading the lines -/

theorem ofText_explanations {ms : List Message} (h : AreExplanations ms) :
    (explanations 1 ms).map (Line.ofText ·.toList) = below (outlines 1 ms) := by
  have hlines := congrArg (List.map Line.ofText) (toList_explanations 1 ms)
  rw [List.map_map, List.map_map] at hlines
  refine hlines.trans (List.map_congr_left ?_)
  intro e he
  obtain ⟨hdepth, htext⟩ := of_mem_outlines h e he
  exact ofText_continuation htext.unpadded htext.markFree hdepth

/-- What follows a diagnostic: nothing, or the header of another one. -/
def AtHeader (lines : List Line) : Prop :=
  ∀ l ∈ lines.head?, ∃ header, l = .header header

theorem AtHeader.continuations_eq {lines : List Line} (h : AtHeader lines) :
    continuations lines = [] := by
  cases lines with
  | nil => rfl
  | cons l lines =>
    obtain ⟨header, rfl⟩ := h l rfl
    rfl

/-- The lines of printable diagnostics begin with a header, and the diagnostics are read from
them. -/
theorem diagnosticsOf_diagnosticLines (directory : Location) {ds : List Diagnostic}
    (h : ∀ d ∈ ds, Printable d) :
    AtHeader ((ds.flatMap diagnosticLines).map (Line.ofText ·.toList)) ∧
      diagnosticsOf directory ((ds.flatMap diagnosticLines).map (Line.ofText ·.toList)) =
        .ok ds := by
  induction ds with
  | nil => exact ⟨fun l hl => absurd hl (by simp), rfl⟩
  | cons d ds ih =>
    obtain ⟨hstart, hrest⟩ := ih fun e he => h e (List.mem_cons_of_mem _ he)
    have hd := h d List.mem_cons_self
    obtain ⟨header, hheader, hdiagnostic⟩ := hd.exists_header directory
    have hbelow := ofText_explanations hd.areExplanations
    have hforest := forest_outlines 1 hd.areExplanations
    rw [List.flatMap_cons, diagnosticLines_eq, List.map_append, List.map_cons, hbelow,
      List.cons_append]
    rw [hheader]
    constructor
    · intro l hl
      exact ⟨header, (Option.some.inj hl).symm⟩
    · rw [diagnosticsOf, continuations_below, hstart.continuations_eq, List.append_nil, hforest,
        hdiagnostic, diagnosticsOf_eq, blocks_below, ← diagnosticsOf_eq, hrest]
      rfl

/-- A text with the printed lines is read as the diagnostics, however its lines are ended. -/
theorem read_of_splitLines {ds : List Diagnostic} (h : ∀ d ∈ ds, Printable d) {text : List Char}
    (htext : Text.splitLines text = (ds.flatMap diagnosticLines).map (·.toList))
    (directory : Location) : read directory text = .ok ds := by
  unfold read
  rw [htext, List.map_map]
  exact (diagnosticsOf_diagnosticLines directory h).2

theorem splitLines_print {ds : List Diagnostic} (h : ∀ d ∈ ds, Printable d) :
    Text.splitLines (print ds).toList = (ds.flatMap diagnosticLines).map (·.toList) := by
  have hlines : ∀ l ∈ ds.flatMap diagnosticLines, Text.OneLine l.toList ∧ l ≠ "" := by
    intro l hl
    obtain ⟨d, hd, hl⟩ := List.mem_flatMap.mp hl
    exact (h d hd).oneLine_diagnosticLines l hl
  exact Text.splitLines_intercalate (fun l hl => (hlines l hl).1) fun l hl => (hlines l hl).2

/-- **Reading undoes printing**: the listing of printable diagnostics is read as exactly these
diagnostics, from whatever directory their files are seen. -/
theorem read_print {ds : List Diagnostic} (h : ∀ d ∈ ds, Printable d) (directory : Location) :
    read directory (print ds).toList = .ok ds :=
  read_of_splitLines h (splitLines_print h) directory

/-- A diagnostic with explanations at several depths, in a file whose name comes close to a mark,
and one of the whole program. -/
def sample : List Diagnostic :=
  [⟨some "/src/a(1,2): error.ts", 4, .chain "No overload (of 2) fits." [
      .chain "Overload 1 gave:" [.chain "(1,2): error TS" [], .chain "deeper" []],
      .chain "Overload 2 is (1,2): warning." []], 2769, 0, "error"⟩,
    ⟨none, 0, .text "  Cannot find global type.", 2318, 0, "message"⟩]

theorem printable_sample : ∀ d ∈ sample, Printable d := by
  have hplace : Location.IsCanonical ⟨["src", "a(1,2): error.ts"]⟩ := by decide
  intro d hd
  simp only [sample, List.mem_cons, List.not_mem_nil, or_false] at hd
  rcases hd with rfl | rfl
  · refine ⟨by decide, by decide, by decide, by decide, ?_, by simp, by decide, ?_⟩
    · rintro file hfile
      obtain rfl := Option.some.inj hfile
      exact ⟨⟨_, hplace, by decide⟩, by decide, by decide⟩
    · intro head next hmessage
      obtain ⟨rfl, rfl⟩ := Message.chain.inj hmessage
      refine ⟨by simp, ?_⟩
      exact ⟨⟨by decide, ⟨by decide, trivial⟩, ⟨by decide, trivial⟩, trivial⟩,
        ⟨by decide, trivial⟩, trivial⟩
  · exact ⟨by decide, by decide, by decide, by decide, by simp, fun _ => ⟨rfl, rfl, by decide⟩,
      by decide, by simp⟩

theorem read_print_sample :
    (∀ d ∈ sample, Printable d) ∧
      read ⟨["home"]⟩ (print sample).toList = .ok sample :=
  ⟨printable_sample, read_print printable_sample ⟨["home"]⟩⟩

end Listing

end ExpectedDiagnostics
