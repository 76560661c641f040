import ExpectedDiagnostics.Index.Program
import ExpectedDiagnostics.Proofs.Except
import ExpectedDiagnostics.Proofs.Index.Lines

/-!
# What a program's index holds

The index of a program is used through the index of each file: adding a diagnostic reaches the file
that its path leads to and no other one, and so does giving a file another index.

Main results:

* `forFile_addAt` / `forFile_replace` / `forFile_take` — what these steps do to the index of any
  file.
* `contains_addAt` / `contains_take` — which files are known after them.
* `ofList_eq_ok` — the index of diagnostics whose files can all be resolved: every file has the
  diagnostics about it, in the order in which they are given.
* `allResolve_of_addAll` — there is no index of other diagnostics.
-/

namespace ExpectedDiagnostics

namespace Diagnostic

/-- The place that the file of a diagnostic leads to from a directory. -/
def place? (directory : Location) (d : Diagnostic) : Option Location :=
  d.file.map fun file => (Path.ofString file).place directory

/-- The diagnostics about the file at a place, in the order in which they are given. -/
def about (directory place : Location) (ds : List Diagnostic) : List Diagnostic :=
  ds.filter fun d => d.place? directory == some place

/-- Every file that diagnostics name can be resolved, as whatever a checker gives can be. -/
def AllResolve (directory : Location) (ds : List Diagnostic) : Prop :=
  ∀ d ∈ ds, ∀ file, d.file = some file →
    ∃ place, (Path.ofString file).resolve directory = .ok place

end Diagnostic

/-- A path that can be resolved leads to its place. -/
theorem Path.eq_place_of_resolve {directory place : Location} {p : Path}
    (h : p.resolve directory = .ok place) : place = p.place directory := by
  unfold Path.resolve at h
  split at h
  · exact absurd h (by simp)
  · exact (Except.ok.inj h).symm

namespace ProgramIndex

/-! ## One file -/

@[simp] theorem forFile_empty (place : Location) : empty.forFile place = .empty := rfl

theorem contains_iff {ix : ProgramIndex} {place : Location} :
    ix.contains place = true ↔ ∃ lines, ix.files.lookup place = some lines := by
  unfold contains
  rw [← Option.isSome_iff_exists, List.lookup_isSome_iff, List.any_eq_true]
  constructor
  · rintro ⟨f, hf, hplace⟩
    exact ⟨f, hf, by rwa [BEq.comm] at hplace⟩
  · rintro ⟨f, hf, hplace⟩
    exact ⟨f, hf, by rwa [BEq.comm] at hplace⟩

/-- Another index is given to the file at a place only, and only if the file is there. -/
theorem forFile_replace (ix : ProgramIndex) (place other : Location) (lines : LineIndex) :
    (ix.replace place lines).forFile other =
      if other = place ∧ ix.contains place = true then lines else ix.forFile other := by
  obtain ⟨files⟩ := ix
  unfold forFile replace contains
  -- the files are looked up one after the other, so each one is asked for itself: whether it is the
  -- one asked for, and whether it is the one that is given another index
  induction files with
  | nil => simp
  | cons f files ih =>
    obtain ⟨p, own⟩ := f
    simp only [beq_iff_eq] at ih
    by_cases ho : other = p
    · by_cases hp : p = place
      · simp [ho, hp]
      · simp [ho, hp]
    · have hno : (other == p) = false := by simpa using ho
      by_cases hp : p = place
      · have hne : ¬ other = place := fun heq => ho (heq.trans hp.symm)
        simp only [hne, false_and, if_false] at ih
        simpa [hp, hne, List.lookup_cons, show (other == place) = false by simpa using hne] using ih
      · have hne : (p == place) = false := by simpa using hp
        rw [List.any_cons, hne, Bool.false_or]
        simpa [hp, hno, List.lookup_cons] using ih

/-- Adding a diagnostic reaches the file at the place and no other one. -/
theorem forFile_addAt (ix : ProgramIndex) (place other : Location) (d : Diagnostic) :
    (ix.addAt place d).forFile other =
      if other = place then (ix.forFile place).add d.line d else ix.forFile other := by
  unfold addAt
  dsimp only
  by_cases hc : ix.contains place = true
  · rw [if_pos hc, forFile_replace]
    simp [hc]
  · rw [if_neg hc]
    -- a file that is not there yet is added at the end, where only its own place finds it
    have hnone : ix.files.lookup place = none := by
      cases hl : ix.files.lookup place with
      | none => rfl
      | some lines => exact absurd (contains_iff.mpr ⟨lines, hl⟩) hc
    unfold forFile
    rw [List.lookup_append]
    by_cases ho : other = place
    · subst ho
      simp [hnone]
    · have hne : (other == place) = false := by simpa using ho
      simp [ho, List.lookup_cons, hne]

/-- A file that nothing was reported for has an empty index. -/
theorem forFile_eq_empty {ix : ProgramIndex} {place : Location} (h : ix.contains place = false) :
    ix.forFile place = .empty := by
  unfold forFile
  cases hl : ix.files.lookup place with
  | none => rfl
  | some lines =>
    rw [contains_iff.mpr ⟨lines, hl⟩] at h
    exact absurd h (by decide)

/-- No index is given to a file that nothing was reported for. -/
theorem replace_eq_self {ix : ProgramIndex} {place : Location} (h : ix.contains place = false)
    (lines : LineIndex) : ix.replace place lines = ix := by
  unfold contains at h
  rw [List.any_eq_false] at h
  have hfiles : ix.files.map (fun f => if f.1 == place then (f.1, lines) else f) = ix.files := by
    conv_rhs => rw [← List.map_id ix.files]
    apply List.map_congr_left
    intro f hf
    exact if_neg (h f hf)
  unfold replace
  rw [hfiles]

/-- Giving a file another index makes no file known. -/
theorem contains_replace (ix : ProgramIndex) (place other : Location) (lines : LineIndex) :
    (ix.replace place lines).contains other = ix.contains other := by
  unfold replace contains
  rw [List.any_map]
  congr 1
  funext f
  rw [Function.comp_apply]
  split
  · rfl
  · rfl

/-- Adding a diagnostic makes its file known and no other one. -/
theorem contains_addAt (ix : ProgramIndex) (place other : Location) (d : Diagnostic) :
    (ix.addAt place d).contains other = (place == other || ix.contains other) := by
  unfold addAt
  dsimp only
  split
  · rename_i hc
    rw [contains_replace]
    by_cases h : place = other
    · rw [← h, hc, Bool.or_true]
    · rw [beq_eq_false_iff_ne.mpr h, Bool.false_or]
  · unfold contains
    rw [List.any_append, Bool.or_comm]
    simp

/-- A take reaches the file at the place and no other one. -/
theorem forFile_take (ix : ProgramIndex) (place other : Location) (line : Int) :
    (ix.take place line).2.forFile other =
      if other = place then (ix.forFile place).drop line else ix.forFile other := by
  show (ix.replace place ((ix.forFile place).drop line)).forFile other = _
  rw [forFile_replace]
  by_cases hc : ix.contains place = true
  · simp [hc]
  · -- a file that is not there has nothing to be taken
    have hempty := forFile_eq_empty (Bool.eq_false_iff.mpr hc)
    rw [if_neg fun h => hc h.2]
    split
    · rename_i ho
      rw [ho, hempty]
      rfl
    · rfl

theorem contains_take (ix : ProgramIndex) (place other : Location) (line : Int) :
    (ix.take place line).2.contains other = ix.contains other :=
  contains_replace ix place other _

/-! ## All files -/

/-- Adding diagnostics that resolve succeeds, and adds to each file the ones about it. -/
theorem addAll_eq_ok {directory : Location} {ds : List Diagnostic} (ix : ProgramIndex)
    (h : Diagnostic.AllResolve directory ds) :
    ∃ full, ix.addAll directory ds = .ok full ∧ ∀ place,
      full.forFile place = ⟨(ix.forFile place).entries ++
        (Diagnostic.about directory place ds).map fun d => (d.line, d)⟩ := by
  -- each diagnostic changes the index that the others are added to, so it varies in the induction
  induction ds generalizing ix with
  | nil =>
    refine ⟨ix, rfl, ?_⟩
    intro place
    simp [Diagnostic.about]
  | cons d ds ih =>
    have hds : Diagnostic.AllResolve directory ds := fun x hx => h x (List.mem_cons_of_mem _ hx)
    cases hfile : d.file with
    | none =>
      -- a diagnostic without a file is passed over, and is about no place
      obtain ⟨full, hfull, hplaces⟩ := ih ix hds
      refine ⟨full, ?_, ?_⟩
      · rw [addAll, hfile]
        exact hfull
      · intro place
        rw [hplaces place]
        simp [Diagnostic.about, Diagnostic.place?, hfile]
    | some file =>
      obtain ⟨own, hown⟩ := h d (List.mem_cons_self ..) file hfile
      obtain ⟨full, hfull, hplaces⟩ := ih (ix.addAt own d) hds
      refine ⟨full, ?_, ?_⟩
      · rw [addAll, hfile]
        dsimp only
        rw [addTo, hown]
        exact hfull
      · intro place
        have hplace : d.place? directory = some own := by
          rw [Diagnostic.place?, hfile, Option.map_some, ← Path.eq_place_of_resolve hown]
        rw [hplaces place, forFile_addAt]
        by_cases hp : place = own
        · subst hp
          simp [Diagnostic.about, hplace, LineIndex.add]
        · have hne : ¬ own = place := fun heq => hp heq.symm
          simp [Diagnostic.about, hplace, hp, hne]

/-- The index of diagnostics that resolve: each file has the diagnostics about it. -/
theorem ofList_eq_ok {directory : Location} {ds : List Diagnostic}
    (h : Diagnostic.AllResolve directory ds) :
    ∃ ix, ofList directory ds = .ok ix ∧
      ∀ place, ix.forFile place = .ofList (Diagnostic.about directory place ds) := by
  obtain ⟨ix, hix, hplaces⟩ := addAll_eq_ok empty h
  refine ⟨ix, hix, ?_⟩
  intro place
  rw [hplaces place, forFile_empty]
  rfl

/-- Diagnostics of which an index can be made have files that can be resolved. -/
theorem allResolve_of_addAll {directory : Location} {ds : List Diagnostic}
    {ix full : ProgramIndex} (h : ix.addAll directory ds = .ok full) :
    Diagnostic.AllResolve directory ds := by
  induction ds generalizing ix with
  | nil => exact fun d hd => absurd hd List.not_mem_nil
  | cons d ds ih =>
    cases hfile : d.file with
    | none =>
      rw [addAll, hfile] at h
      intro e he file hsome
      rcases List.mem_cons.mp he with rfl | he
      · exact absurd (hsome.symm.trans hfile) (Option.some_ne_none file)
      · exact ih h e he file hsome
    | some own =>
      rw [addAll, hfile] at h
      obtain ⟨next, hnext, h⟩ := exists_of_bind_eq_ok h
      obtain ⟨place, hplace, -⟩ := exists_of_bind_eq_ok hnext
      intro e he file hsome
      rcases List.mem_cons.mp he with rfl | he
      · exact ⟨place, Option.some.inj (hfile.symm.trans hsome) ▸ hplace⟩
      · exact ih h e he file hsome

end ProgramIndex

end ExpectedDiagnostics
