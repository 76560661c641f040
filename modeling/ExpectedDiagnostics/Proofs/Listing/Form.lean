import ExpectedDiagnostics.Proofs.Listing.Line
import Mathlib.Data.Nat.Find

/-!
# The forms of lines

What a line of a listing is, told without the functions that read it. A header in a file is a name,
a mark and a text; the name is the shortest one that a mark stands behind. A header without a file
is a statement and a text, and no header in a file. A continuation begins with one step to the
right, is not blank, and is no header in a file. Each line is one of these, or none.

Main results:

* `ofText_eq_header_iff` — which lines are read as headers, and as which.
* `IsHeader.unique` — a header line says one thing only.
* `ofText_eq_continuation_iff` — which lines are read as continuations, and as which.
-/

namespace ExpectedDiagnostics.Listing

/-! ## Headers -/

/-- The form of a header in a file: a name that is not empty, and a mark behind it. -/
def HasFileForm (cs : List Char) : Prop :=
  ∃ name rest, name ≠ [] ∧ StartsMark rest ∧ cs = name ++ rest

/-- The form of a header without a file. -/
def HasGlobalForm (cs : List Char) : Prop :=
  ∃ category code text, category ∈ categories ∧ IsNumber code ∧
    cs = statementText category code ++ text

def HasHeaderForm (cs : List Char) : Prop :=
  HasFileForm cs ∨ HasGlobalForm cs

/-- What a header line says. -/
inductive IsHeader : List Char → Header → Prop
  | inFile {file line column code text : List Char} {category : String} (hfile : file ≠ [])
      (hline : IsNumber line) (hcolumn : IsNumber column) (hcategory : category ∈ categories)
      (hcode : IsNumber code)
      (hshortest : ∀ name rest, name ≠ [] → StartsMark rest →
        file ++ (markText line column category code ++ text) = name ++ rest →
          file.length ≤ name.length) :
      IsHeader (file ++ (markText line column category code ++ text))
        ⟨some (file, Text.number line, Text.number column), category, Text.number code, text⟩
  | global {code text : List Char} {category : String} (hcategory : category ∈ categories)
      (hcode : IsNumber code) (hfile : ¬ HasFileForm (statementText category code ++ text)) :
      IsHeader (statementText category code ++ text) ⟨none, category, Text.number code, text⟩

theorem IsHeader.hasHeaderForm {cs : List Char} {h : Header} (hheader : IsHeader cs h) :
    HasHeaderForm cs := by
  cases hheader with
  | inFile hfile hline hcolumn hcategory hcode =>
    exact .inl ⟨_, _, hfile, ⟨_, ⟨_, _, _, _, hline, hcolumn, hcategory, hcode, rfl⟩,
      List.prefix_append _ _⟩, rfl⟩
  | global hcategory hcode => exact .inr ⟨_, _, _, hcategory, hcode, rfl⟩

/-- Among the names that a mark stands behind there is a shortest one. -/
theorem HasFileForm.exists_shortest {cs : List Char} (h : HasFileForm cs) :
    ∃ file rest, file ≠ [] ∧ StartsMark rest ∧ cs = file ++ rest ∧
      ∀ name rest, name ≠ [] → StartsMark rest → cs = name ++ rest →
        file.length ≤ name.length := by
  classical
  have hlength : ∃ n, ∃ name rest, name ≠ [] ∧ StartsMark rest ∧ cs = name ++ rest ∧
      name.length = n := by
    obtain ⟨name, rest, hname, hmark, hcs⟩ := h
    exact ⟨_, name, rest, hname, hmark, hcs, rfl⟩
  obtain ⟨file, rest, hfile, hmark, hcs, hfind⟩ := Nat.find_spec hlength
  refine ⟨file, rest, hfile, hmark, hcs, fun name others hname hothers hsplit => ?_⟩
  rw [hfind]
  exact Nat.find_min' hlength ⟨name, others, hname, hothers, hsplit, rfl⟩

/-- Each line of the form of a header says something. -/
theorem HasHeaderForm.exists_isHeader {cs : List Char} (h : HasHeaderForm cs) :
    ∃ header, IsHeader cs header := by
  by_cases hform : HasFileForm cs
  · obtain ⟨file, rest, hfile, ⟨mark, hmark, text, rfl⟩, rfl, hshortest⟩ := hform.exists_shortest
    obtain ⟨line, column, category, code, hline, hcolumn, hcategory, hcode, rfl⟩ := hmark
    exact ⟨_, .inFile hfile hline hcolumn hcategory hcode hshortest⟩
  -- a line of both forms is one of a file, so only here the other form counts
  · obtain ⟨category, code, text, hcategory, hcode, rfl⟩ := h.resolve_left hform
    exact ⟨_, .global hcategory hcode hform⟩

/-! ## Reading headers -/

theorem fileHeader?_eq_none_of_form {cs : List Char} (h : ¬ HasFileForm cs) :
    fileHeader? [] cs = none :=
  @fileHeader?_eq_none [] cs fun name rest hcs hname hmark => h ⟨name, rest, hname, hmark, hcs⟩

/-- What a header line says is what it is read as. -/
theorem IsHeader.ofText {cs : List Char} {h : Header} (hheader : IsHeader cs h) :
    Line.ofText cs = .header h := by
  cases hheader with
  | @inFile file line column code text category hfile hline hcolumn hcategory hcode hshortest =>
    have hplaced := placed?_append hline hcolumn hcategory hcode file.reverse text
    rw [List.reverse_reverse] at hplaced
    -- a mark behind a shorter name would make that the name of the file
    have hread := @fileHeader?_append [] file _ _ hfile hplaced
      fun shorter longer hsplit hne hlength hmark =>
        absurd (hshortest shorter longer hne hmark hsplit) (Nat.not_le_of_lt hlength)
    rw [List.reverse_nil] at hread
    rw [Line.ofText, hread]
  | global hcategory hcode hfile =>
    rw [Line.ofText, fileHeader?_eq_none_of_form hfile, globalHeader?,
      statement?_append hcategory hcode]
    rfl

theorem ofText_eq_of_not_hasHeaderForm {cs : List Char} (h : ¬ HasHeaderForm cs) :
    Line.ofText cs = (continuation? cs).getD .other := by
  have hglobal : statement? cs = none := by
    rw [Option.eq_none_iff_forall_not_mem]
    rintro ⟨category, n, text⟩ hstatement
    obtain ⟨code, hcategory, hcode, rfl⟩ := eq_append_of_statement? hstatement
    exact h (.inr ⟨category, code, text, hcategory, hcode, rfl⟩)
  rw [Line.ofText, fileHeader?_eq_none_of_form fun hform => h (.inl hform), globalHeader?, hglobal]
  rfl

/-! ## Continuations -/

/-- A line that explains an earlier one. -/
structure IsContinuation (cs : List Char) : Prop where
  indented : [' ', ' '] <+: cs
  notBlank : ¬ Text.AllBlank cs
  noFileForm : ¬ HasFileForm cs

/-- The depth of a line by the spaces at its front, two to a step; it is at least one. -/
def lineDepth (cs : List Char) : Nat :=
  max 1 ((cs.takeWhile (· == ' ')).length / 2)

example : lineDepth "     five".toList = 2 := by decide

theorem indented_iff {cs : List Char} :
    [' ', ' '] <+: cs ↔ stepWidth ≤ (cs.takeWhile (· == ' ')).length := by
  have hstep : stepWidth = 2 := rfl
  rw [hstep]
  match cs with
  | [] => simp
  | [c] =>
    refine iff_of_false (fun h => absurd h.length_le (by simp)) fun h => ?_
    exact absurd (h.trans (List.takeWhile_sublist _).length_le) (by simp)
  | c :: d :: cs =>
    rw [List.cons_prefix_cons, List.cons_prefix_cons, List.takeWhile_cons, List.takeWhile_cons]
    by_cases hc : c = ' '
    · by_cases hd : d = ' '
      · simp [hc, hd]
      · simp [hc, hd, Ne.symm hd]
    · simp [hc, Ne.symm hc]

theorem continuation?_eq_some_iff {cs : List Char} {l : Line} :
    continuation? cs = some l ↔ [' ', ' '] <+: cs ∧ ¬ Text.AllBlank cs ∧
      l = .continuation (lineDepth cs) (Text.strip cs) := by
  rw [indented_iff, ← Text.strip_eq_nil_iff]
  unfold continuation?
  dsimp only
  split
  · rename_i hstrip
    simp [hstrip]
  · rename_i hstrip
    split
    · rename_i hstep
      rw [Option.some.injEq, and_iff_right hstep, and_iff_right hstrip, eq_comm]
      rfl
    · rename_i hstep
      simp [hstep]

/-- A line that is further in is no header without a file. -/
theorem IsContinuation.not_hasHeaderForm {cs : List Char} (h : IsContinuation cs) :
    ¬ HasHeaderForm cs := by
  rintro (hfile | ⟨category, code, text, hcategory, hcode, hcs⟩)
  · exact h.noFileForm hfile
  · obtain ⟨rest, rfl⟩ := h.indented
    -- no category begins with a space
    have hread := statement?_append hcategory hcode text
    rw [← hcs] at hread
    exact absurd (hread.symm.trans (statement?_space _)) (by simp)

/-! ## What lines are read as -/

/-- **Headers**: a line is read as what it says. -/
theorem ofText_eq_header_iff {cs : List Char} {h : Header} :
    Line.ofText cs = .header h ↔ IsHeader cs h := by
  refine ⟨fun hread => ?_, IsHeader.ofText⟩
  by_cases hform : HasHeaderForm cs
  · obtain ⟨other, hother⟩ := hform.exists_isHeader
    obtain rfl := Line.header.inj (hother.ofText.symm.trans hread)
    exact hother
  · rw [ofText_eq_of_not_hasHeaderForm hform] at hread
    cases hcontinuation : continuation? cs with
    | none => exact nomatch hcontinuation ▸ hread
    | some l =>
      obtain ⟨-, -, rfl⟩ := continuation?_eq_some_iff.mp hcontinuation
      exact nomatch hcontinuation ▸ hread

/-- A header line says one thing only. -/
theorem IsHeader.unique {cs : List Char} {h other : Header} (hheader : IsHeader cs h)
    (hother : IsHeader cs other) : other = h :=
  Line.header.inj (hother.ofText.symm.trans hheader.ofText)

/-- The header that a line is, if it is one. -/
def Line.header? : Line → Option Header
  | .header h => some h
  | _ => none

theorem header?_ofText_eq_some_iff {cs : List Char} {h : Header} :
    (Line.ofText cs).header? = some h ↔ IsHeader cs h := by
  rw [← ofText_eq_header_iff]
  cases Line.ofText cs <;> simp [Line.header?]

theorem hasHeaderForm_iff {cs : List Char} :
    HasHeaderForm cs ↔ (Line.ofText cs).header?.isSome = true := by
  rw [Option.isSome_iff_exists]
  constructor
  · intro hform
    obtain ⟨h, hheader⟩ := hform.exists_isHeader
    exact ⟨h, header?_ofText_eq_some_iff.mpr hheader⟩
  · rintro ⟨h, hread⟩
    exact (header?_ofText_eq_some_iff.mp hread).hasHeaderForm

instance (cs : List Char) : Decidable (HasHeaderForm cs) :=
  decidable_of_iff _ hasHeaderForm_iff.symm

/-- **Continuations**: a line is read as its depth and its stripped text. -/
theorem ofText_eq_continuation_iff {cs text : List Char} {depth : Nat} :
    Line.ofText cs = .continuation depth text ↔
      IsContinuation cs ∧ depth = lineDepth cs ∧ text = Text.strip cs := by
  constructor
  · intro hread
    have hform : ¬ HasHeaderForm cs := by
      rw [hasHeaderForm_iff, hread]
      exact Bool.false_ne_true
    rw [ofText_eq_of_not_hasHeaderForm hform] at hread
    cases hcontinuation : continuation? cs with
    | none => exact nomatch hcontinuation ▸ hread
    | some l =>
      rw [hcontinuation, Option.getD_some] at hread
      obtain ⟨hindented, hblank, rfl⟩ := continuation?_eq_some_iff.mp hcontinuation
      obtain ⟨rfl, rfl⟩ := Line.continuation.inj hread
      exact ⟨⟨hindented, hblank, fun hfile => hform (.inl hfile)⟩, rfl, rfl⟩
  · rintro ⟨hform, rfl, rfl⟩
    have hcontinuation := continuation?_eq_some_iff.mpr ⟨hform.indented, hform.notBlank, rfl⟩
    rw [ofText_eq_of_not_hasHeaderForm hform.not_hasHeaderForm, hcontinuation]
    rfl

end ExpectedDiagnostics.Listing
