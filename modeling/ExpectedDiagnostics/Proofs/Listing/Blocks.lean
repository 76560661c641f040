import ExpectedDiagnostics.Listing.Reader
import ExpectedDiagnostics.Proofs.Except
import ExpectedDiagnostics.Proofs.Listing.Form
import ExpectedDiagnostics.Proofs.Null
import ExpectedDiagnostics.Proofs.Text.Lines

/-!
# Blocks of a listing

A listing is read block by block: a header, and the lines right below it that explain it. What
stands between the blocks does not matter, and neither does what stands behind a block, as long as
it does not go on with explanations. So two listings, one behind the other, are read as the
diagnostics of the one and then those of the other, and there are as many diagnostics as header
lines.

A header whose file has the null character is one as any other, but its file cannot be resolved, and
nothing is read of a listing that has such a header in it.

Main results:

* `diagnosticsOf_eq`, `blocks_append` — reading by blocks, and the blocks of two listings.
* `toDiagnostic_eq_ok_iff` — the diagnostic of a header.
* `read_eq_ok_iff`, `exists_read_iff` — what a listing is read as, and when it is read.
* `read_compositional` — a listing behind another one, and the number of diagnostics.
-/

namespace ExpectedDiagnostics.Listing

/-! ## Blocks -/

/-- The headers among lines, each with what explains it. -/
def blocks : List Line → List (Header × List (Nat × List Char))
  | [] => []
  | .header h :: lines => (h, continuations lines) :: blocks lines
  | _ :: lines => blocks lines

/-- Lines are read block by block. -/
theorem diagnosticsOf_eq (directory : Location) (lines : List Line) :
    diagnosticsOf directory lines =
      (blocks lines).mapM fun b => b.1.toDiagnostic directory (forest b.2) := by
  fun_induction blocks lines with
  | case1 => rfl
  | case2 h lines ih => rw [diagnosticsOf, List.mapM_cons, ih]
  | case3 l lines hheader ih =>
    rw [← ih]
    cases l with
    | header h => exact absurd rfl (hheader h)
    | continuation depth text => rfl
    | other => rfl

theorem continuations_append (front : List Line) {back : List Line}
    (hback : continuations back = []) :
    continuations (front ++ back) = continuations front := by
  fun_induction continuations front with
  | case1 depth text lines ih => exact congrArg ((depth, text) :: ·) ih
  -- the front is used up, or ends what goes on
  | case2 lines hlines =>
    cases lines with
    | nil => exact hback
    | cons l lines =>
      cases l with
      | continuation depth text => exact absurd rfl (hlines depth text lines)
      | header h => rfl
      | other => rfl

/-- **No block goes on** behind lines that begin with no explanation. -/
theorem blocks_append (front : List Line) {back : List Line} (hback : continuations back = []) :
    blocks (front ++ back) = blocks front ++ blocks back := by
  fun_induction blocks front with
  | case1 => rfl
  | case2 h lines ih =>
    rw [List.cons_append, blocks, continuations_append lines hback, ih, List.cons_append]
  | case3 l lines hheader ih =>
    cases l with
    | header h => exact absurd rfl (hheader h)
    | continuation depth text => exact ih
    | other => exact ih

theorem map_fst_blocks (lines : List Line) :
    (blocks lines).map (·.1) = lines.filterMap Line.header? := by
  fun_induction blocks lines with
  | case1 => rfl
  | case2 h lines ih => exact congrArg (h :: ·) ih
  | case3 l lines hheader ih =>
    cases l with
    | header h => exact absurd rfl (hheader h)
    | continuation depth text => exact ih
    | other => exact ih

/-! ## Lines below a header -/

/-- The lines below a header, as they are read. -/
def below (es : List (Nat × List Char)) : List Line :=
  es.map fun e => .continuation e.1 e.2

theorem continuations_below (es : List (Nat × List Char)) (lines : List Line) :
    continuations (below es ++ lines) = es ++ continuations lines := by
  induction es with
  | nil => rfl
  | cons e es ih => exact congrArg (e :: ·) ih

theorem blocks_below (es : List (Nat × List Char)) (lines : List Line) :
    blocks (below es ++ lines) = blocks lines := by
  induction es with
  | nil => rfl
  | cons e es ih => exact ih

theorem continuations_map_eq_nil_iff {lines : List (List Char)} :
    continuations (lines.map Line.ofText) = [] ↔ ∀ line ∈ lines.head?, ¬ IsContinuation line := by
  cases lines with
  | nil => simp [continuations]
  | cons line lines =>
    rw [List.head?_cons, List.map_cons]
    simp only [Option.mem_some_iff, forall_eq']
    by_cases hform : IsContinuation line
    · rw [ofText_eq_continuation_iff.mpr ⟨hform, rfl, rfl⟩]
      exact iff_of_false (List.cons_ne_nil _ _) fun hnot => hnot hform
    · refine iff_of_true ?_ hform
      cases hline : Line.ofText line with
      | continuation depth text => exact absurd (ofText_eq_continuation_iff.mp hline).1 hform
      | header h => rfl
      | other => rfl

instance (cs : List Char) : Decidable (IsContinuation cs) :=
  decidable_of_iff (¬ continuations ([cs].map Line.ofText) = []) (by
    rw [continuations_map_eq_nil_iff]
    simp)

/-! ## The diagnostic of a header -/

variable {directory : Location} {text : List Char}

/-- The file of a header, if there is one, can be resolved. -/
def Header.CanResolve (directory : Location) (h : Header) : Prop :=
  ∀ place ∈ h.place, Path.CanResolve directory (.ofList place.1)

instance (h : Header) : Decidable (h.CanResolve directory) :=
  inferInstanceAs (Decidable (∀ place ∈ h.place, _))

/-- What a header says of its diagnostic: all but the message. -/
structure Header.Opens (directory : Location) (h : Header) (d : Diagnostic) : Prop where
  place : (h.place = none ∧ d.file = none ∧ d.line = 0 ∧ d.column = 0) ∨
    ∃ file line column place, h.place = some (file, line, column) ∧
      (Path.ofString (.ofList file)).resolve directory = .ok place ∧
        d.file = some place.toString ∧ d.line = line - 1 ∧ d.column = column - 1
  code : d.code = h.code
  category : d.category = h.category

/-- **The diagnostic of a header**: the header opens it, and its message has what explains it. -/
theorem toDiagnostic_eq_ok_iff {h : Header} {next : List Message} {d : Diagnostic} :
    h.toDiagnostic directory next = .ok d ↔
      h.Opens directory d ∧ d.message = messageOf h.text next := by
  obtain ⟨place, category, code, text⟩ := h
  cases place with
  | none =>
    constructor
    · intro h
      obtain rfl := Except.ok.inj h
      exact ⟨⟨.inl ⟨rfl, rfl, rfl, rfl⟩, rfl, rfl⟩, rfl⟩
    · rintro ⟨hopens, hmessage⟩
      obtain ⟨-, hfile, hline, hcolumn⟩ := hopens.place.resolve_right (by simp)
      obtain ⟨file, line, message, n, column, kind⟩ := d
      obtain rfl : n = _ := hopens.code
      obtain rfl : kind = _ := hopens.category
      dsimp only at hfile hline hcolumn hmessage
      rw [hfile, hline, hcolumn, hmessage]
      rfl
  | some placed =>
    obtain ⟨file, line, column⟩ := placed
    constructor
    · intro h
      obtain ⟨place, hplace, h⟩ := exists_of_bind_eq_ok h
      obtain rfl := Except.ok.inj h
      exact ⟨⟨.inr ⟨file, line, column, place, rfl, hplace, rfl, rfl, rfl⟩, rfl, rfl⟩, rfl⟩
    · rintro ⟨hopens, hmessage⟩
      obtain ⟨_, _, _, place, heq, hplace, hfile, hline, hcolumn⟩ :=
        hopens.place.resolve_left (by simp)
      obtain ⟨rfl, rfl, rfl⟩ : file = _ ∧ line = _ ∧ column = _ := by simpa using heq
      obtain ⟨found, dline, message, n, dcolumn, kind⟩ := d
      obtain rfl : n = _ := hopens.code
      obtain rfl : kind = _ := hopens.category
      dsimp only at hfile hline hcolumn hmessage
      unfold Header.toDiagnostic
      dsimp only
      rw [hplace, hfile, hline, hcolumn, hmessage]
      rfl

/-- A header has a diagnostic exactly if its file can be resolved. -/
theorem exists_toDiagnostic_iff {h : Header} {next : List Message} :
    (∃ d, h.toDiagnostic directory next = .ok d) ↔ h.CanResolve directory := by
  unfold Header.CanResolve Header.toDiagnostic
  cases h.place with
  | none => simp
  | some placed =>
    simp only [Option.mem_some_iff, forall_eq', ← Path.exists_resolve_ofString_iff]
    constructor
    · rintro ⟨d, h⟩
      obtain ⟨place, hplace, -⟩ := exists_of_bind_eq_ok h
      exact ⟨place, hplace⟩
    · rintro ⟨place, hplace⟩
      rw [hplace]
      exact ⟨_, rfl⟩

/-! ## Listings -/

theorem read_eq (directory : Location) (text : List Char) :
    read directory text = (blocks ((Text.splitLines text).map Line.ofText)).mapM
      fun b => b.1.toDiagnostic directory (forest b.2) :=
  diagnosticsOf_eq directory _

/-- **What a listing is read as**: a diagnostic for each block, which the header opens and the rest
explains. -/
theorem read_eq_ok_iff {ds : List Diagnostic} :
    read directory text = .ok ds ↔
      List.Forall₂ (fun b d => b.1.Opens directory d ∧ d.message = messageOf b.1.text (forest b.2))
        (blocks ((Text.splitLines text).map Line.ofText)) ds := by
  simp only [read_eq, mapM_eq_ok_iff, toDiagnostic_eq_ok_iff]

/-- The files of all headers of a listing can be resolved. -/
def FilesResolve (directory : Location) (text : List Char) : Prop :=
  ∀ line ∈ Text.splitLines text, ∀ h, IsHeader line h → h.CanResolve directory

theorem mem_headers_iff {lines : List (List Char)} {h : Header} :
    h ∈ (lines.map Line.ofText).filterMap Line.header? ↔ ∃ line ∈ lines, IsHeader line h := by
  rw [List.filterMap_map, List.mem_filterMap]
  simp only [Function.comp_apply, header?_ofText_eq_some_iff]

/-- There are as many blocks as header lines. -/
theorem length_blocks (lines : List (List Char)) :
    (blocks (lines.map Line.ofText)).length = (lines.filter (HasHeaderForm ·)).length := by
  have hforms : (fun line => (Line.ofText line).header?.isSome) = fun line =>
      decide (HasHeaderForm line) := by
    funext line
    rw [Bool.eq_iff_iff, decide_eq_true_iff, hasHeaderForm_iff]
  rw [← List.length_map (·.1), map_fst_blocks, List.filterMap_map,
    List.length_filterMap_eq_countP, ← List.countP_eq_length_filter, ← hforms]
  rfl

theorem filesResolve_iff : FilesResolve directory text ↔
    ∀ h ∈ ((Text.splitLines text).map Line.ofText).filterMap Line.header?,
      h.CanResolve directory := by
  simp only [mem_headers_iff]
  exact ⟨fun hall h ⟨line, hline, hheader⟩ => hall line hline h hheader,
    fun hall line hline h hheader => hall h ⟨line, hline, hheader⟩⟩

instance (directory : Location) (text : List Char) : Decidable (FilesResolve directory text) :=
  decidable_of_iff _ filesResolve_iff.symm

/-- **When a listing is read.** -/
theorem exists_read_iff : (∃ ds, read directory text = .ok ds) ↔ FilesResolve directory text := by
  rw [read_eq, exists_mapM_iff, filesResolve_iff, ← map_fst_blocks, List.forall_mem_map]
  simp only [exists_toDiagnostic_iff]

theorem read_eq_error (h : ¬ FilesResolve directory text) :
    read directory text = .error .nullCharacter := by
  cases hread : read directory text with
  | ok ds => exact absurd (exists_read_iff.mp ⟨ds, hread⟩) h
  -- there is no other fault
  | error fault =>
    cases fault
    rfl

/-- Diagnostics that are opened by the headers of lines are opened by the header lines. -/
theorem forall₂_headers {lines : List (List Char)} {ds : List Diagnostic}
    (h : List.Forall₂ (Header.Opens directory)
      ((lines.map Line.ofText).filterMap Line.header?) ds) :
    List.Forall₂ (fun line d => ∃ h, IsHeader line h ∧ h.Opens directory d)
      (lines.filter (HasHeaderForm ·)) ds := by
  induction lines generalizing ds with
  | nil =>
    cases h
    exact .nil
  | cons line lines ih =>
    rw [List.map_cons] at h
    cases hheader : (Line.ofText line).header? with
    | none =>
      rw [List.filterMap_cons_none hheader] at h
      rw [List.filter_cons_of_neg]
      · exact ih h
      · rw [decide_eq_true_iff, hasHeaderForm_iff, hheader]
        exact Bool.false_ne_true
    | some header =>
      rw [List.filterMap_cons_some hheader, List.forall₂_cons_left_iff] at h
      obtain ⟨d, rest, hd, hrest, rfl⟩ := h
      have hline := header?_ofText_eq_some_iff.mp hheader
      rw [List.filter_cons, if_pos (decide_eq_true hline.hasHeaderForm)]
      exact .cons ⟨header, hline, hd⟩ (ih hrest)

/-- A listing is read as a diagnostic for each header line, in order. -/
theorem forall₂_of_read {ds : List Diagnostic} (h : read directory text = .ok ds) :
    List.Forall₂ (fun line d => ∃ h, IsHeader line h ∧ h.Opens directory d)
      ((Text.splitLines text).filter (HasHeaderForm ·)) ds := by
  apply forall₂_headers
  rw [← map_fst_blocks, List.forall₂_map_left_iff]
  exact (read_eq_ok_iff.mp h).imp fun _ _ hd => hd.1

/-- A listing behind another one, if it does not go on with an explanation. -/
theorem read_append (directory : Location) (front : List Char) {back : List Char}
    (hback : ∀ line ∈ (Text.splitLines back).head?, ¬ IsContinuation line) :
    read directory (front ++ '\n' :: back) = (do
      let ds ← read directory front
      let es ← read directory back
      return ds ++ es) := by
  obtain ⟨gap, hgap, hsplit⟩ := Text.exists_splitLines_append front back
  have hback := continuations_map_eq_nil_iff.mpr hback
  -- an empty line begins no block, and ends one
  have hrest : continuations ((gap ++ Text.splitLines back).map Line.ofText) = [] ∧
      blocks ((gap ++ Text.splitLines back).map Line.ofText) =
        blocks ((Text.splitLines back).map Line.ofText) := by
    rcases hgap with rfl | rfl
    · exact ⟨hback, rfl⟩
    · exact ⟨rfl, rfl⟩
  rw [read_eq, read_eq, read_eq, hsplit, List.map_append, blocks_append _ hrest.1, hrest.2,
    List.mapM_append]

/-- **Listings are read one after the other, and header lines one by one.** -/
theorem read_compositional (directory : Location) :
    (∀ front back, (∀ line ∈ (Text.splitLines back).head?, ¬ IsContinuation line) →
      read directory (front ++ '\n' :: back) = (do
        let ds ← read directory front
        let es ← read directory back
        return ds ++ es)) ∧
    (∀ text, FilesResolve directory text → ∃ ds, read directory text = .ok ds ∧
      ds.length = ((Text.splitLines text).filter (HasHeaderForm ·)).length ∧
      List.Forall₂ (fun line d => ∃ h, IsHeader line h ∧ h.Opens directory d)
        ((Text.splitLines text).filter (HasHeaderForm ·)) ds) ∧
    ∀ text, ¬ FilesResolve directory text → read directory text = .error .nullCharacter := by
  refine ⟨fun front back => read_append directory front, fun text hfiles => ?_,
    fun text => read_eq_error⟩
  obtain ⟨ds, hds⟩ := exists_read_iff.mpr hfiles
  have hlines := forall₂_of_read hds
  exact ⟨ds, hds, hlines.length_eq.symm, hlines⟩

/-- Two listings: one with an explanation, and with the first half of the end of its last line. -/
def firstSample : List Char :=
  "a.ts(1,2): error TS1: x\r\n  y\r\n\r".toList

def secondSample : List Char :=
  "told apart\n  z\nwarning TS2: w".toList

theorem read_compositional_samples :
    (∀ line ∈ (Text.splitLines secondSample).head?, ¬ IsContinuation line) ∧
      FilesResolve ⟨["base"]⟩ (firstSample ++ '\n' :: secondSample) ∧
      read ⟨["base"]⟩ (firstSample ++ '\n' :: secondSample) = (do
        let ds ← read ⟨["base"]⟩ firstSample
        let es ← read ⟨["base"]⟩ secondSample
        return ds ++ es) ∧
      ∃ ds, read ⟨["base"]⟩ (firstSample ++ '\n' :: secondSample) = .ok ds ∧ ds.length = 2 := by
  obtain ⟨happend, hread, -⟩ := read_compositional ⟨["base"]⟩
  have hback : ∀ line ∈ (Text.splitLines secondSample).head?, ¬ IsContinuation line := by decide
  have hfiles : FilesResolve ⟨["base"]⟩ (firstSample ++ '\n' :: secondSample) := by decide
  obtain ⟨ds, hds, hlength, -⟩ := hread _ hfiles
  exact ⟨hback, hfiles, happend _ _ hback, ds, hds, hlength.trans (by decide)⟩

/-- A listing with two headers, one of them for a file with the null character in its name. -/
def nullSample : List Char :=
  "a.ts(1,1): error TS1: x\na\x00b(1,1): error TS2: y".toList

theorem not_read_nullSample :
    ((Text.splitLines nullSample).filter (HasHeaderForm ·)).length = 2 ∧
      ∀ ds, read ⟨["virt", "base"]⟩ nullSample ≠ .ok ds := by
  have hfiles : ¬ FilesResolve ⟨["virt", "base"]⟩ nullSample := by decide
  refine ⟨by decide, fun ds hds => ?_⟩
  exact hfiles (exists_read_iff.mp ⟨ds, hds⟩)

end ExpectedDiagnostics.Listing
