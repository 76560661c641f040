import ExpectedDiagnostics.Proofs.Capture
import ExpectedDiagnostics.Proofs.Record.Grammar

/-!
# Which documents of records are accepted

A list of records is collected exactly if every item of it is a record, and then as the diagnostics
that the items tell of, in order and without repetitions. Otherwise the problem that is told names
the document, and the first item that is no record by its number, counted from zero.

Main results:

* `readRecords_eq_ok_iff`, `exists_of_readRecords_error` — what reading the items comes to, and
  where it stops.
* `collect_accepts` — which lists are collected, what is collected, and what is told otherwise.
-/

namespace ExpectedDiagnostics.Capture

open Record (IsEntry TellsOf)
open Text (Torn piecesOf)

variable {directory : Location} {items : List Data}

/-! ## Items one after the other -/

/-- Items are read as diagnostics one by one. -/
theorem readRecords_eq_ok_iff {number : Nat} {ds : List (Diagnostic Torn)} :
    readRecords directory number items = .ok ds ↔ List.Forall₂ (TellsOf directory) items ds := by
  induction items generalizing number ds with
  | nil =>
    rw [readRecords, List.forall₂_nil_left_iff]
    exact ⟨fun h => (Except.ok.inj h).symm, fun h => h ▸ rfl⟩
  | cons item items ih =>
    rw [readRecords, List.forall₂_cons_left_iff]
    cases hitem : Record.readTorn directory item with
    | error fault =>
      refine iff_of_false (by simp) ?_
      rintro ⟨d, others, hd, -⟩
      exact absurd (hitem.symm.trans (Record.readTorn_eq_ok_iff.mpr hd)) (by simp)
    | ok d =>
      constructor
      · intro h
        obtain ⟨others, hothers, h⟩ := exists_of_bind_eq_ok h
        exact ⟨d, others, Record.readTorn_eq_ok_iff.mp hitem, ih.mp hothers, (Except.ok.inj h).symm⟩
      · rintro ⟨other, others, hother, hothers, rfl⟩
        obtain rfl := Except.ok.inj (hitem.symm.trans (Record.readTorn_eq_ok_iff.mpr hother))
        dsimp only
        rw [ih.mpr hothers]
        rfl

/-- Reading stops at the first item that is no record, and tells its number. -/
theorem exists_of_readRecords_error {number found : Nat} {fault : Record.Fault}
    (h : readRecords directory number items = .error (found, fault)) :
    ∃ before bad after, items = before ++ bad :: after ∧
      (∀ item ∈ before, IsEntry directory item) ∧ ¬ IsEntry directory bad ∧
        Record.readTorn directory bad = .error fault ∧ found = number + before.length := by
  induction items generalizing number with
  | nil => exact absurd h (by simp [readRecords])
  | cons item items ih =>
    rw [readRecords] at h
    cases hitem : Record.readTorn directory item with
    | error other =>
      rw [hitem] at h
      obtain ⟨rfl, rfl⟩ := Prod.mk.inj (Except.error.inj h)
      refine ⟨[], item, items, rfl, by simp, ?_, hitem, rfl⟩
      rw [Record.isEntry_iff, hitem]
      simp
    | ok d =>
      rw [hitem] at h
      have hrest : readRecords directory (number + 1) items = .error (found, fault) :=
        (error_of_bind_eq_error h).resolve_right (by simp [pure, Except.pure])
      obtain ⟨before, bad, after, rfl, hbefore, hbad, hread, rfl⟩ := ih hrest
      refine ⟨item :: before, bad, after, rfl, ?_, hbad, hread, ?_⟩
      · exact List.forall_mem_cons.mpr ⟨Record.isEntry_iff.mpr ⟨d, hitem⟩, hbefore⟩
      · rw [List.length_cons]
        omega

/-- All items are records exactly if they tell of diagnostics. -/
theorem forall_isEntry_iff :
    (∀ item ∈ items, IsEntry directory item) ↔
      ∃ ds, List.Forall₂ (TellsOf directory) items ds := by
  constructor
  · intro hall
    cases hread : readRecords directory 0 items with
    | ok ds => exact ⟨ds, readRecords_eq_ok_iff.mp hread⟩
    | error found =>
      obtain ⟨before, bad, after, rfl, -, hbad, -⟩ := exists_of_readRecords_error hread
      exact absurd (hall bad (List.mem_append_right before List.mem_cons_self)) hbad
  · rintro ⟨ds, h⟩
    induction h with
    | nil => exact nofun
    | cons hd hrest ih =>
      have hentry := Record.isEntry_iff.mpr ⟨_, Record.readTorn_eq_ok_iff.mpr hd⟩
      exact List.forall_mem_cons.mpr ⟨hentry, ih⟩

/-! ## Documents -/

/-- The directory from which the files of a capture are seen. -/
def seenFrom (c : Capture) (w : Workspace) : Location :=
  (c.base.map w.place).getD w.directory

variable {c : Capture} {w : Workspace} {text : List Char}

/-- What collecting a list of records comes to, by what reading its items comes to. -/
theorem collect_eq_of_list (hform : c.form = .records) (htext : c.text w = .ok text)
    (hlist : Json.read text = .ok (.list items)) :
    c.collect w = match readRecords (c.seenFrom w) 0 items with
      | .ok ds => .ok ((Diagnostic.tidy ds).map Diagnostic.shown)
      | .error (number, fault) => .error (.problem (.diagnosticsFormat c.path
          ("entry " ++ toString number ++ ": " ++ Record.Fault.message fault))) := by
  unfold collect
  rw [htext]
  show c.diagnosticsOf (c.seenFrom w) text = _
  unfold diagnosticsOf ofRecords
  rw [hform, hlist]
  dsimp only
  cases readRecords (c.seenFrom w) 0 items with
  | ok ds => rfl
  | error found => rfl

/-- The record of an explained message. -/
def sampleFields : List (String × Data) :=
  [("file", .text "a.ts"), ("line", .int 3), ("code", .int 2322),
    ("message", Record.ofMessage (.chain "Top." [.chain "Detail." []]))]

/-- It names a file, but none of its lines. -/
def lineless : List (String × Data) :=
  [("file", .text "a.ts"), ("code", .int 1), ("message", .text "x")]

/-- Both of them come in on the standard input. -/
def sampleInput : Workspace :=
  ⟨⟨[], []⟩, ⟨["home"]⟩, ⟨["home"]⟩, Json.compact (.list [.table sampleFields, .table lineless])⟩

theorem isPlain_sampleFields : Json.IsPlain (.list [.table sampleFields, .table lineless]) := by
  have hnames : (sampleFields.map (·.1)).Nodup ∧ (lineless.map (·.1)).Nodup := by decide
  exact ⟨⟨hnames.1, trivial, trivial, trivial, Record.isPlain_ofMessage _, trivial⟩,
    ⟨hnames.2, trivial, trivial, trivial, trivial⟩, trivial⟩

theorem isRecord_sampleFields : Record.IsRecord ⟨["home"]⟩ sampleFields where
  file := .inr ⟨_, ⟨_, rfl, .text "a.ts"⟩, by simp [Path.Nameable, Text.piecesOf], by decide,
    fun _ => by unfold NullFree; decide⟩
  message := ⟨_, _, rfl, (Record.message_eq_ok_iff _ _).mp (Record.message_ofMessage _)⟩
  line := .inl ⟨3, rfl⟩
  code := ⟨2322, rfl⟩
  column := .inr rfl

theorem not_isRecord_lineless : ¬ Record.IsRecord ⟨["home"]⟩ lineless := by
  intro h
  rcases h.line with ⟨n, hn⟩ | ⟨-, hno | hno⟩
  · exact nomatch hn
  · exact nomatch hno
  · exact nomatch hno

/-- The record of a plain message, at a place in a file whose name is half of a pair. -/
def halfFields : List (String × Data) :=
  [("file", .torn [.half 0xD800]), ("message", .text "x"), ("line", .int 1), ("code", .int 1)]

/-- It comes in on the standard input. -/
def halfInput : Workspace :=
  ⟨⟨[], []⟩, ⟨["home"]⟩, ⟨["home"]⟩, Json.compact (.list [.table halfFields])⟩

theorem isPlain_halfFields : Json.IsPlain (.list [.table halfFields]) := by
  have hnames : (halfFields.map (·.1)).Nodup := by decide
  have htorn : Json.IsTorn [.half 0xD800] := by
    refine ⟨rfl, fun n hn => ?_, .singleton _⟩
    obtain rfl := Text.Piece.half.inj (List.mem_singleton.mp hn)
    decide
  exact ⟨⟨hnames, htorn, trivial, trivial, trivial, trivial⟩, trivial⟩

end ExpectedDiagnostics.Capture
