import ExpectedDiagnostics.Proofs.Index.Program
import ExpectedDiagnostics.Proofs.Null
import ExpectedDiagnostics.Proofs.Transcript

/-!
# Operations on a program's index

An index is asked to add diagnostics, to take the lines of files, and to tell whether something was
reported for a file, all by paths as they are written. An operation reaches the place that its path
leads to. If it has no path, or one that holds the null character, it is refused, and nothing
changes.

Main results:

* `perform_of_place?` / `perform_of_place?_none` — what an operation does at the place that it
  reaches, and that it is refused if it reaches none.
* `ofList_eq_after` — an index of diagnostics is one to which they have been added one by one.
-/

namespace ExpectedDiagnostics

/-! ## Paths as they are written -/

namespace Path

theorem resolve_ofString {directory : Location} (hdirectory : NullFree directory.names)
    {text : String} (h : '\x00' ∉ text.toList) :
    (ofString text).resolve directory = .ok ((ofString text).place directory) := by
  obtain ⟨place, hplace⟩ := exists_resolve_ofString hdirectory h
  rw [hplace, ← eq_place_of_resolve hplace]

theorem resolve_ofString_null (directory : Location) {text : String} (h : '\x00' ∈ text.toList) :
    (ofString text).resolve directory = .error .nullCharacter := by
  unfold resolve
  rw [hasNull_ofString h, Bool.true_or, if_pos rfl]

end Path

namespace ProgramIndex

/-! ## Operations -/

/-- What an index is asked for. -/
inductive Operation
  | add (d : Diagnostic)
  | take (path : String) (line : Int)
  | ask (path : String)

/-- What an operation answers. -/
inductive Answer
  | added
  | taken (ds : List Diagnostic)
  | told (known : Bool)
  | refused (f : Fault)

/-- What an operation answers, and the index after it, be it one that is refused. -/
def perform (directory : Location) (ix : ProgramIndex) : Operation → Answer × ProgramIndex
  | .add d =>
    match ix.add directory d with
    | .error f => (.refused f, ix)
    | .ok next => (.added, next)
  | .take path line =>
    match ix.takeFrom directory path line with
    | .error f => (.refused f, ix)
    | .ok (ds, next) => (.taken ds, next)
  | .ask path =>
    match ix.knows directory path with
    | .error f => (.refused f, ix)
    | .ok known => (.told known, ix)

/-! ## Where operations lead -/

namespace Operation

/-- The path of an operation. To add a diagnostic is to reach its file. -/
def path? : Operation → Option String
  | .add d => d.file
  | .take path _ => some path
  | .ask path => some path

/-- The place that an operation reaches: the one that its path leads to, if it has one without the
null character. -/
def place? (directory : Location) (op : Operation) : Option Location :=
  op.path?.bind fun path =>
    if '\x00' ∈ path.toList then none else some ((Path.ofString path).place directory)

variable {directory : Location} {op : Operation}

theorem place?_eq_some {place : Location} :
    op.place? directory = some place ↔
      ∃ path, op.path? = some path ∧ '\x00' ∉ path.toList ∧
        place = (Path.ofString path).place directory := by
  unfold place?
  rw [Option.bind_eq_some_iff]
  refine exists_congr fun path => and_congr_right fun _ => ?_
  by_cases hnull : '\x00' ∈ path.toList
  · simp [hnull]
  · simp [hnull, eq_comm]

theorem place?_eq_none :
    op.place? directory = none ↔
      op.path? = none ∨ ∃ path, op.path? = some path ∧ '\x00' ∈ path.toList := by
  unfold place?
  cases op.path? with
  | none => simp
  | some path => simp

end Operation

/-! ## What an operation does -/

/-- What an operation answers that reaches a place, and the index after it. -/
def performAt (ix : ProgramIndex) (place : Location) : Operation → Answer × ProgramIndex
  | .add d => (.added, ix.addAt place d)
  | .take _ line => (.taken ((ix.forFile place).on line), (ix.take place line).2)
  | .ask _ => (.told (ix.contains place), ix)

section

variable (ix : ProgramIndex) {directory place : Location} {op : Operation}

theorem find_eq_ok (hdirectory : NullFree directory.names) {path : String}
    (h : '\x00' ∉ path.toList) :
    find directory path = .ok ((Path.ofString path).place directory) := by
  unfold find
  rw [Path.resolve_ofString hdirectory h]
  rfl

theorem find_eq_error {path : String} (h : '\x00' ∈ path.toList) :
    find directory path = .error (.unresolved .nullCharacter) := by
  unfold find
  rw [Path.resolve_ofString_null directory h]
  rfl

/-- **What an operation does** at the place that it reaches. -/
theorem perform_of_place? (hdirectory : NullFree directory.names)
    (h : op.place? directory = some place) : ix.perform directory op = ix.performAt place op := by
  obtain ⟨path, hpath, hnull, rfl⟩ := Operation.place?_eq_some.mp h
  cases op with
  | add d =>
    have hfile : d.file = some path := hpath
    simp only [perform, add, hfile, addTo, Path.resolve_ofString hdirectory hnull]
    rfl
  | take other line =>
    obtain rfl := Option.some.inj hpath
    simp only [perform, takeFrom, find_eq_ok hdirectory hnull]
    rfl
  | ask other =>
    obtain rfl := Option.some.inj hpath
    simp only [perform, knows, find_eq_ok hdirectory hnull]
    rfl

/-- An addition without a file is refused. -/
theorem perform_noFile {d : Diagnostic} (h : d.file = none) :
    ix.perform directory (.add d) = (.refused .noFile, ix) := by
  simp only [perform, add, h]

/-- An operation whose path holds the null character is refused. -/
theorem perform_null {path : String} (hpath : op.path? = some path) (hnull : '\x00' ∈ path.toList) :
    ix.perform directory op = (.refused (.unresolved .nullCharacter), ix) := by
  cases op with
  | add d =>
    have hfile : d.file = some path := hpath
    simp only [perform, add, hfile, addTo, Path.resolve_ofString_null directory hnull]
    rfl
  | take other line =>
    obtain rfl := Option.some.inj hpath
    simp only [perform, takeFrom, find_eq_error hnull]
    rfl
  | ask other =>
    obtain rfl := Option.some.inj hpath
    simp only [perform, knows, find_eq_error hnull]
    rfl

/-- **An operation that reaches no place** is refused, and changes nothing. -/
theorem perform_of_place?_none (h : op.place? directory = none) :
    ∃ f, ix.perform directory op = (.refused f, ix) := by
  rcases Operation.place?_eq_none.mp h with hpath | ⟨path, hpath, hnull⟩
  · cases op with
    | add d => exact ⟨_, perform_noFile ix hpath⟩
    | take path line => exact absurd hpath (by simp [Operation.path?])
    | ask path => exact absurd hpath (by simp [Operation.path?])
  · exact ⟨_, perform_null ix hpath hnull⟩

end

/-! ## Diagnostics, added one by one -/

/-- The files of diagnostics can be resolved: none of them holds the null character. -/
def NullFreeFiles (ds : List Diagnostic) : Prop :=
  ∀ d ∈ ds, ∀ file ∈ d.file, '\x00' ∉ file.toList

theorem NullFreeFiles.filter {ds : List Diagnostic} (h : NullFreeFiles ds)
    (keep : Diagnostic → Bool) : NullFreeFiles (ds.filter keep) :=
  fun d hd => h d (List.mem_of_mem_filter hd)

variable (ix : ProgramIndex) {directory : Location} {ds : List Diagnostic}

theorem addAll_eq_after (hdirectory : NullFree directory.names) (h : NullFreeFiles ds) :
    ix.addAll directory ds = .ok (afterAll (perform directory) ix (ds.map .add)) := by
  induction ds generalizing ix with
  | nil => rfl
  | cons d ds ih =>
    obtain ⟨hd, hds⟩ := List.forall_mem_cons.mp h
    cases hfile : d.file with
    | none =>
      -- the diagnostic is left out here, and its addition is refused there
      rw [addAll, hfile]
      show ix.addAll directory ds =
        .ok (afterAll (perform directory) (ix.perform directory (.add d)).2 _)
      rw [perform_noFile ix hfile]
      exact ih ix hds
    | some file =>
      have hplace : (Operation.add d).place? directory =
          some ((Path.ofString file).place directory) :=
        Operation.place?_eq_some.mpr ⟨file, hfile, hd file hfile, rfl⟩
      rw [addAll, hfile]
      dsimp only
      rw [addTo, Path.resolve_ofString hdirectory (hd file hfile)]
      show (ix.addAt _ d).addAll directory ds =
        .ok (afterAll (perform directory) (ix.perform directory (.add d)).2 _)
      rw [perform_of_place? ix hdirectory hplace]
      exact ih (ix.addAt _ d) hds

/-- **An index of diagnostics** is one to which they have been added one by one. -/
theorem ofList_eq_after (hdirectory : NullFree directory.names) (h : NullFreeFiles ds) :
    ofList directory ds = .ok (afterAll (perform directory) empty (ds.map .add)) :=
  addAll_eq_after empty hdirectory h

/-- Diagnostics without a file have no effect. -/
theorem addAll_filter_file (ix : ProgramIndex) (directory : Location) (ds : List Diagnostic) :
    ix.addAll directory (ds.filter fun d => d.file.isSome) = ix.addAll directory ds := by
  induction ds generalizing ix with
  | nil => rfl
  | cons d ds ih =>
    rw [List.filter_cons]
    cases hfile : d.file with
    | none =>
      rw [addAll, hfile]
      exact ih ix
    | some file =>
      rw [Option.isSome_some, if_pos rfl, addAll, addAll, hfile]
      exact congrArg _ (funext fun next => ih next)

end ProgramIndex

end ExpectedDiagnostics
