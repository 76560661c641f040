import ExpectedDiagnostics.Proofs.Check.ExitStatus
import ExpectedDiagnostics.Proofs.Check.Independence

/-!
# Files that are checked in turn

Files are checked one after the other, each with what the ones before it have left of its
diagnostics. A file that comes again finds the lines of its annotations taken, so each of them fails
this time, while a file without annotations finds all as it was.

Main results:

* `HoldsRemaining.visit` — what one file leaves for those after it.
* `checkAll_passed_iff` — a check of any files passes exactly if each one is in order with what the
  ones before it have left.
* `orderedFrom_iff` — this is so exactly if all files are in order and none that is named again has
  an annotation.
-/

namespace ExpectedDiagnostics

namespace Check

variable {directory : Location} {unexpected : Bool} {ds : List Diagnostic}
  {file : Source × List CommentGroup} {seen files : List (Source × List CommentGroup)}

/-! ## What files leave -/

/-- The lines that the annotations of a file take. -/
def takenLines (file : Source × List CommentGroup) : List Int :=
  (CommentGroup.readAll file.2).1.map (·.line)

/-- What files that were checked have left of the diagnostics about a place. -/
def remaining (directory : Location) (ds : List Diagnostic)
    (seen : List (Source × List CommentGroup)) (place : Location) : List Diagnostic :=
  (Diagnostic.about directory place ds).filter fun d =>
    !seen.any fun file => placeOf directory file == place && (takenLines file).contains d.line

theorem remaining_eq_about {place : Location}
    (h : ∀ file ∈ seen, placeOf directory file = place → takenLines file = []) :
    remaining directory ds seen place = Diagnostic.about directory place ds := by
  unfold remaining
  rw [List.filter_eq_self]
  intro d _
  rw [Bool.not_eq_true', List.any_eq_false]
  intro file hfile htaken
  rw [Bool.and_eq_true, beq_iff_eq, List.contains_iff_mem] at htaken
  rw [h file hfile htaken.1] at htaken
  exact absurd htaken.2 List.not_mem_nil

/-- Nothing is left on the lines that a file has taken. -/
theorem not_mem_takenLines {place : Location} {d : Diagnostic}
    (hd : d ∈ remaining directory ds seen place) (hfile : file ∈ seen)
    (hplace : placeOf directory file = place) : d.line ∉ takenLines file := by
  intro htaken
  have hleft := (List.mem_filter.mp hd).2
  rw [Bool.not_eq_true', List.any_eq_false] at hleft
  refine hleft file hfile ?_
  rw [Bool.and_eq_true, beq_iff_eq, List.contains_iff_mem]
  exact ⟨hplace, htaken⟩

/-- One more file takes the lines of its annotations at its own place, and nothing elsewhere. -/
theorem filter_remaining_cons (place : Location) (line : Int) :
    (remaining directory ds (file :: seen) place).filter (·.line == line) =
      if place = placeOf directory file ∧ line ∈ takenLines file then []
      else (remaining directory ds seen place).filter (·.line == line) := by
  unfold remaining
  split
  · rename_i htaken
    rw [List.filter_eq_nil_iff]
    intro d hd hline
    have hfile : file ∈ file :: seen := List.mem_cons_self
    exact not_mem_takenLines hd hfile htaken.1.symm (beq_iff_eq.mp hline ▸ htaken.2)
  -- on any other line the file takes nothing, so the two filters agree diagnostic by diagnostic
  · rename_i hleft
    rw [List.filter_filter, List.filter_filter]
    refine List.filter_congr fun d _ => ?_
    by_cases hline : d.line = line
    · have hother : (placeOf directory file == place && (takenLines file).contains d.line) =
          false := by
        rw [Bool.eq_false_iff, Ne, Bool.and_eq_true, beq_iff_eq, List.contains_iff_mem, hline]
        exact fun h => hleft ⟨h.1.symm, h.2⟩
      rw [List.any_cons, hother, Bool.false_or]
    · rw [beq_eq_false_iff_ne.mpr hline, Bool.false_and, Bool.false_and]

/-- The index holds, for each of these files, what the ones before have left. -/
def HoldsRemaining (directory : Location) (ds : List Diagnostic) (ix : ProgramIndex)
    (seen files : List (Source × List CommentGroup)) : Prop :=
  ∀ file ∈ files, LineIndex.SameOnLines (ix.forFile (placeOf directory file))
    (.ofList (remaining directory ds seen (placeOf directory file)))

/-! ## One more file -/

/-- The check of a file with what an index has for it, as if it were the first one of its run. -/
def visit (directory : Location) (unexpected : Bool) (ix : ProgramIndex)
    (file : Source × List CommentGroup) : Run × LineIndex × Except Failure (Option FileSummary) :=
  (Run.start unexpected).checkFile file.1 (ix.forFile (placeOf directory file)) file.2

/-- The run once it has checked one more file. -/
def afterVisit (directory : Location) (run : Run) (ix : ProgramIndex)
    (file : Source × List CommentGroup) : Run :=
  (run.note .debug ("Checking " ++ file.1.path.toString)).followedBy
    (visit directory run.unexpected ix file).1

variable {run : Run} {ix : ProgramIndex}

theorem checkAll_visit (hclosed : run.current = none) :
    checkAll directory run ix (file :: files) =
      match (visit directory run.unexpected ix file).2.2 with
      | .error f => (afterVisit directory run ix file, .error f)
      | .ok _ => checkAll directory (afterVisit directory run ix file)
          (ix.replace (placeOf directory file) (visit directory run.unexpected ix file).2.1)
          files := by
  obtain ⟨source, groups⟩ := file
  rw [checkAll]
  dsimp only
  rw [Run.checkFile_followedBy (run.note .debug ("Checking " ++ source.path.toString)) hclosed]
  rfl

/-- A file takes from the index what is on the lines of its annotations. -/
theorem HoldsRemaining.visit (h : HoldsRemaining directory ds ix seen (file :: files)) :
    HoldsRemaining directory ds
      (ix.replace (placeOf directory file) (visit directory unexpected ix file).2.1)
      (file :: seen) files := by
  intro other hother line
  have hbefore := h other (List.mem_cons_of_mem _ hother) line
  rw [LineIndex.on_ofList] at hbefore
  rw [LineIndex.on_ofList, filter_remaining_cons, ← hbefore, ProgramIndex.forFile_replace]
  by_cases hplace : placeOf directory other = placeOf directory file
  · rw [hplace]
    by_cases hin : ix.contains (placeOf directory file) = true
    · have hleft : (Check.visit directory unexpected ix file).2.1 =
          (Run.claims (ix.forFile (placeOf directory file)) file.2).2 := by
        unfold Check.visit
        rw [Run.checkFile_start]
      rw [if_pos ⟨rfl, hin⟩, hleft, Run.claims, Outcome.on_claimAll]
      exact if_congr (and_iff_right rfl).symm rfl rfl
    -- a file that nothing was reported for has nothing to be taken
    · have hempty : ix.forFile (placeOf directory file) = .empty := by
        unfold ProgramIndex.forFile
        cases hlookup : ix.files.lookup (placeOf directory file) with
        | none => rfl
        | some lines => exact absurd (ProgramIndex.contains_iff.mpr ⟨lines, hlookup⟩) hin
      rw [if_neg fun hboth => hin hboth.2, hempty]
      split
      · rfl
      · rfl
  · rw [if_neg fun hboth => hplace hboth.1, if_neg fun hboth => hplace hboth.1]

/-- A file is in order with what the ones before have left exactly if its check passes. -/
theorem visit_inOrder_iff (h : HoldsRemaining directory ds ix seen (file :: files))
    (hgood : ¬ Run.Disagrees file.1 file.2) :
    ((visit directory unexpected ix file).1.aborted = [] ∧
        (visit directory unexpected ix file).1.totals.passed unexpected = true) ↔
      CommentGroup.InOrder unexpected (remaining directory ds seen (placeOf directory file))
        file.2 := by
  have hcongr : (visit directory unexpected ix file).1 = ((Run.start unexpected).checkFile file.1
      (.ofList (remaining directory ds seen (placeOf directory file))) file.2).1 :=
    (Run.checkFile_congr (h file List.mem_cons_self)).1
  rw [hcongr]
  exact Run.checkFile_inOrder_iff hgood

/-- A file whose comments and markers agree does not fail, and leaves no file open. -/
theorem exists_visit_ok (directory : Location) (unexpected : Bool) (ix : ProgramIndex)
    (hgood : ¬ Run.Disagrees file.1 file.2) :
    (∃ s?, (visit directory unexpected ix file).2.2 = .ok s?) ∧
      (visit directory unexpected ix file).1.current = none ∧
      (visit directory unexpected ix file).1.unexpected = unexpected ∧
      (visit directory unexpected ix file).1.totals.Nonnegative := by
  cases hresult : (visit directory unexpected ix file).2.2 with
  | ok s? =>
    obtain ⟨hclosed, hun, -, htotals⟩ := Run.closed_of_checkFile_ok hresult
    exact ⟨⟨s?, rfl⟩, hclosed, hun, htotals⟩
  | error f => exact absurd (Run.checkFile_error_iff.mp ⟨f, hresult⟩) hgood

/-- A file that does not fail leaves a closed run, which has counted nothing below zero if the one
before has not, and passes exactly if that one does and the file is in order. -/
theorem passed_afterVisit (hnonneg : run.totals.Nonnegative)
    (hix : HoldsRemaining directory ds ix seen (file :: files))
    (hgood : ¬ Run.Disagrees file.1 file.2) :
    (afterVisit directory run ix file).current = none ∧
      (afterVisit directory run ix file).unexpected = run.unexpected ∧
      (afterVisit directory run ix file).totals.Nonnegative ∧
      ((afterVisit directory run ix file).summary.passed = true ↔
        run.summary.passed = true ∧ CommentGroup.InOrder run.unexpected
          (remaining directory ds seen (placeOf directory file)) file.2) := by
  obtain ⟨-, hclosed, hun, htotals⟩ := exists_visit_ok directory run.unexpected ix hgood
  refine ⟨hclosed, hun, hnonneg.add htotals, ?_⟩
  have hsum : (afterVisit directory run ix file).summary.passed =
      ((run.totals + (visit directory run.unexpected ix file).1.totals).passed
          (visit directory run.unexpected ix file).1.unexpected &&
        (run.aborted ++ (visit directory run.unexpected ix file).1.aborted).isEmpty) := rfl
  rw [hsum, ← visit_inOrder_iff hix hgood, Bool.and_eq_true, List.isEmpty_iff,
    List.append_eq_nil_iff, hun, Counts.passed_add_iff hnonneg htotals]
  unfold Run.summary
  rw [Bool.and_eq_true, List.isEmpty_iff]
  constructor
  · rintro ⟨⟨hbefore, hfile⟩, hnone, haborted⟩
    exact ⟨⟨hbefore, hnone⟩, haborted, hfile⟩
  · rintro ⟨⟨hbefore, hnone⟩, haborted, hfile⟩
    exact ⟨⟨hbefore, hfile⟩, hnone, haborted⟩

/-! ## All files -/

/-- A check fails with an internal problem as soon as the comments and the markers of some file
disagree, whatever the index holds. -/
theorem checkAll_internal_of_disagrees (hclosed : run.current = none)
    (hbad : ∃ file ∈ files, Run.Disagrees file.1 file.2) :
    Internal (checkAll directory run ix files).2 := by
  -- whether a file disagrees does not depend on the index, which therefore varies
  induction files generalizing run ix with
  | nil =>
    obtain ⟨file, hfile, -⟩ := hbad
    exact absurd hfile List.not_mem_nil
  | cons file files ih =>
    rw [checkAll_visit hclosed]
    cases hresult : (visit directory run.unexpected ix file).2.2 with
    | error f =>
      obtain ⟨p, rfl, hp⟩ := Run.internal_of_checkFile_error hresult
      exact ⟨p, rfl, hp⟩
    | ok s? =>
      refine ih (Run.closed_of_checkFile_ok hresult).1 ?_
      -- the file itself has not failed, so it is another one
      have hgood : ¬ Run.Disagrees file.1 file.2 := by
        intro hfile
        obtain ⟨f, hf⟩ := Run.checkFile_error_iff.mpr hfile
        exact nomatch hresult.symm.trans hf
      obtain ⟨other, hother, hdisagrees⟩ := hbad
      rcases List.mem_cons.mp hother with rfl | hother
      · exact absurd hdisagrees hgood
      · exact ⟨other, hother, hdisagrees⟩

/-- Every file is in order with what the ones before it have left. -/
def OrderedFrom (directory : Location) (unexpected : Bool) (ds : List Diagnostic) :
    List (Source × List CommentGroup) → List (Source × List CommentGroup) → Prop
  | _, [] => True
  | seen, file :: files =>
    CommentGroup.InOrder unexpected (remaining directory ds seen (placeOf directory file)) file.2 ∧
      OrderedFrom directory unexpected ds (file :: seen) files

/-- **A check passes** exactly if each file is in order with what the ones before it have left. -/
theorem checkAll_passed_iff (hclosed : run.current = none) (hnonneg : run.totals.Nonnegative)
    (hix : HoldsRemaining directory ds ix seen files)
    (hgood : ∀ file ∈ files, ¬ Run.Disagrees file.1 file.2) :
    ∃ summary, (checkAll directory run ix files).2 = .ok summary ∧
      (summary.passed = true ↔
        run.summary.passed = true ∧ OrderedFrom directory run.unexpected ds seen files) := by
  -- the induction is on the files, over what the ones before have left in the index
  induction files generalizing run ix seen with
  | nil =>
    refine ⟨run.summary, ?_, (and_iff_left trivial).symm⟩
    rw [checkAll, Run.finish, hclosed]
  | cons file files ih =>
    obtain ⟨hfile, hfiles⟩ := List.forall_mem_cons.mp hgood
    obtain ⟨hnone, hun, htotals, hpassed⟩ := passed_afterVisit hnonneg hix hfile
    obtain ⟨summary, hsummary, hiff⟩ := ih hnone htotals hix.visit hfiles
    refine ⟨summary, ?_, ?_⟩
    · obtain ⟨⟨s?, hs⟩, -⟩ := exists_visit_ok directory run.unexpected ix hfile
      rw [checkAll_visit hclosed, hs]
      exact hsummary
    · rw [hiff, hpassed, hun, and_assoc]
      rfl

/-! ## Files that are named again -/

/-- No comment group of a file is an annotation. -/
def Unannotated (file : Source × List CommentGroup) : Prop :=
  ∀ g ∈ file.2, g.isMarked = false

theorem Unannotated.takenLines_eq_nil (h : Unannotated file) : takenLines file = [] := by
  have hread : (CommentGroup.readAll file.2).2 = none :=
    CommentGroup.readAll_eq_none_iff.mpr fun g hg =>
      CommentGroup.not_blank_not_malformed_of_unmarked (h g hg)
  have hnone : file.2.filter CommentGroup.isMarked = [] := by
    rw [List.filter_eq_nil_iff]
    exact fun g hg => Bool.eq_false_iff.mp (h g hg)
  unfold takenLines
  rw [CommentGroup.map_line_readAll hread, hnone, List.map_nil]

/-- The groups of a file that is in order can be read. -/
theorem readAll_of_inOrder {groups : List CommentGroup} (h : CommentGroup.InOrder unexpected ds
    groups) : (CommentGroup.readAll groups).2 = none := by
  refine CommentGroup.readAll_eq_none_iff.mpr fun g hg => ?_
  by_cases hmarked : g.isMarked = true
  · obtain ⟨e, he, -⟩ := h.accepts g (List.mem_filter.mpr ⟨hg, hmarked⟩)
    exact he.kinds.2
  · exact CommentGroup.not_blank_not_malformed_of_unmarked (Bool.eq_false_iff.mpr hmarked)

/-- A file that comes after others is in order with what they have left exactly if it is in order
with all that there is about it, and has no annotation if it is one of them. -/
theorem inOrder_remaining_iff
    (hsame : ∀ g ∈ seen, placeOf directory g = placeOf directory file → g.2 = file.2) :
    CommentGroup.InOrder unexpected (remaining directory ds seen (placeOf directory file)) file.2 ↔
      CommentGroup.InOrder unexpected
          (Diagnostic.about directory (placeOf directory file) ds) file.2 ∧
        ((∃ g ∈ seen, placeOf directory g = placeOf directory file) → Unannotated file) := by
  have hall (hunannotated : (∃ g ∈ seen, placeOf directory g = placeOf directory file) →
      Unannotated file) : remaining directory ds seen (placeOf directory file) =
        Diagnostic.about directory (placeOf directory file) ds := by
    refine remaining_eq_about fun g hg hplace => ?_
    have hfile := hunannotated ⟨g, hg, hplace⟩
    unfold Unannotated at hfile
    rw [← hsame g hg hplace] at hfile
    exact Unannotated.takenLines_eq_nil hfile
  constructor
  · intro h
    have hunannotated : (∃ g ∈ seen, placeOf directory g = placeOf directory file) →
        Unannotated file := by
      rintro ⟨g, hg, hplace⟩ c hc
      by_contra hmarked
      rw [Bool.not_eq_false] at hmarked
      -- an annotation finds its line taken by the same one of the file before
      have hmem := List.mem_filter.mpr ⟨hc, hmarked⟩
      have htaken : c.line ∈ takenLines g := by
        unfold takenLines
        rw [hsame g hg hplace, CommentGroup.map_line_readAll (readAll_of_inOrder h)]
        exact List.mem_map_of_mem hmem
      have hnone : (remaining directory ds seen (placeOf directory file)).filter
          (·.line == c.line) = [] := by
        rw [List.filter_eq_nil_iff]
        intro d hd hline
        exact not_mem_takenLines hd hg hplace (beq_iff_eq.mp hline ▸ htaken)
      obtain ⟨e, -, haccepts⟩ := h.accepts c hmem
      rw [hnone] at haccepts
      exact Outcome.not_acceptsOnly_nil e haccepts
    rw [hall hunannotated] at h
    exact ⟨h, hunannotated⟩
  · rintro ⟨h, hunannotated⟩
    rwa [hall hunannotated]

/-- One of these files comes after another one at its place, or after one that came before all. -/
def NamedAgain (directory : Location) (seen files : List (Source × List CommentGroup))
    (file : Source × List CommentGroup) : Prop :=
  ∃ before after, files = before ++ file :: after ∧
    ∃ g, (g ∈ seen ∨ g ∈ before) ∧ placeOf directory g = placeOf directory file

theorem namedAgain_cons {first : Source × List CommentGroup} :
    NamedAgain directory seen (first :: files) file ↔
      (file = first ∧ ∃ g ∈ seen, placeOf directory g = placeOf directory first) ∨
        NamedAgain directory (first :: seen) files file := by
  constructor
  · rintro ⟨before, after, hsplit, g, hg, hplace⟩
    cases before with
    | nil =>
      obtain ⟨rfl, rfl⟩ := List.cons.inj hsplit
      exact .inl ⟨rfl, g, hg.resolve_right List.not_mem_nil, hplace⟩
    | cons b before =>
      obtain ⟨rfl, rfl⟩ := List.cons.inj hsplit
      refine .inr ⟨before, after, rfl, g, ?_, hplace⟩
      rw [List.mem_cons] at hg ⊢
      exact or_assoc.mpr (or_left_comm.mp hg)
  · rintro (⟨rfl, g, hg, hplace⟩ | ⟨before, after, rfl, g, hg, hplace⟩)
    · exact ⟨[], files, rfl, g, .inl hg, hplace⟩
    · refine ⟨first :: before, after, rfl, g, ?_, hplace⟩
      rw [List.mem_cons] at hg ⊢
      exact or_left_comm.mpr (or_assoc.mp hg)

/-- **Files are in order one after the other** exactly if each one is in order, and none that is
named again has an annotation. -/
theorem orderedFrom_iff (hsame : ∀ f ∈ seen ++ files, ∀ g ∈ seen ++ files,
      placeOf directory f = placeOf directory g → f.2 = g.2) :
    OrderedFrom directory unexpected ds seen files ↔
      (∀ file ∈ files, CommentGroup.InOrder unexpected
        (Diagnostic.about directory (placeOf directory file) ds) file.2) ∧
      ∀ file, NamedAgain directory seen files file → Unannotated file := by
  -- the first file joins those that are seen, and is then one that another file can repeat
  induction files generalizing seen with
  | nil =>
    refine iff_of_true trivial ⟨fun file hfile => absurd hfile List.not_mem_nil, ?_⟩
    rintro file ⟨before, after, hsplit, -⟩
    exact absurd hsplit (by simp)
  | cons first files ih =>
    have hmem : ∀ g, g ∈ (first :: seen) ++ files ↔ g ∈ seen ++ first :: files := by
      intro g
      rw [List.mem_append, List.mem_append, List.mem_cons, List.mem_cons, or_assoc, or_left_comm]
    have hrest := ih fun f hf g hg => hsame f ((hmem f).mp hf) g ((hmem g).mp hg)
    have hfirst : ∀ g ∈ seen, placeOf directory g = placeOf directory first → g.2 = first.2 :=
      fun g hg => hsame g (List.mem_append_left _ hg) first
        (List.mem_append_right _ List.mem_cons_self)
    rw [OrderedFrom, inOrder_remaining_iff hfirst, hrest, List.forall_mem_cons]
    simp only [namedAgain_cons, or_imp, forall_and]
    constructor
    · rintro ⟨⟨hone, hagain⟩, hall, hothers⟩
      exact ⟨⟨hone, hall⟩, fun file ⟨heq, hg⟩ => heq ▸ hagain hg, hothers⟩
    · rintro ⟨⟨hone, hall⟩, hagain, hothers⟩
      exact ⟨⟨hone, fun hg => hagain first ⟨rfl, hg⟩⟩, hall, hothers⟩

end Check

end ExpectedDiagnostics
