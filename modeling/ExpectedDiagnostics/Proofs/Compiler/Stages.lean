import ExpectedDiagnostics.Compiler
import ExpectedDiagnostics.Proofs.Except

/-!
# A run of the compiler in stages

On a file tree without links, a path is resolved as it is written, so it does not matter when this
is done. What a run gives is known from its stages: the files that are staged, the listing of the
call, and the diagnostics that are moved back to their sources.

Main results:

* `collectOn_cases`, `collect_of_resolved` — when collecting diagnostics comes to a run.
* `result_callOn`, `result_collect` — what a run gives, if its files are staged.
-/

namespace ExpectedDiagnostics

namespace Disk

theorem resolveAll_tree (t : FileTree) (w : Workspace) (paths : List Path) :
    resolveAll t w.directory paths = w.resolveAll paths := by
  induction paths with
  | nil => rfl
  | cons p paths ih =>
    rw [resolveAll, Workspace.resolveAll, ih]
    rfl

theorem resolve?_tree (t : FileTree) (w : Workspace) (p : Option Path) :
    resolve? t w.directory p = Compiler.resolve? w p := by
  cases p with
  | none => rfl
  | some p => rfl

end Disk

/-- What stands in the way of a file's being made is what keeps its path from leading anywhere. -/
theorem FileTree.reach_of_locate {t : FileTree} {place found : Location}
    (h : t.locate .root place.toPath = .ok found) : Disk.reach t place = .ok () := by
  rw [disk_reach, h]

namespace Staging

/-- Diagnostics are moved back by the copies alone. -/
theorem mapBack_eq_of_copies {s other : Staging} (h : other.copies = s.copies)
    (directory : Location) (ds : List Diagnostic) :
    other.mapBack directory ds = s.mapBack directory ds := by
  induction ds with
  | nil => rfl
  | cons d ds ih =>
    rw [mapBack, mapBack, ih, mapBack?, mapBack?, h]
    rfl

end Staging

namespace Compiler

section

variable {T : Type} [Disk T]

/-- Collecting diagnostics comes to a run on the places of the files, or it comes to nothing and
does nothing to the disk. -/
theorem collectOn_cases (c : Compiler) (tell : Telling T) (t : T) (here : Location)
    (execute : Executor T) (paths : List Path) :
    (∃ result, c.collectOn tell t here execute paths = ⟨⟨[], result⟩, [], t⟩ ∧
        ∀ ds, result = .ok ds → ds = []) ∨
      ∃ directory sources, Disk.resolveAll t here paths = .ok sources ∧
        c.collectOn tell t here execute paths =
          c.callOn tell t here directory execute sources := by
  unfold collectOn
  split
  · exact .inl ⟨_, rfl, fun _ hds => (Except.ok.inj hds).symm⟩
  split
  · rename_i directory sources _ hsources
    exact .inr ⟨_, sources, hsources, rfl⟩
  · exact .inl ⟨_, rfl, fun _ hds => nomatch hds⟩
  · exact .inl ⟨_, rfl, fun _ hds => nomatch hds⟩

theorem collectOn_of_resolved {c : Compiler} {t : T} {here : Location} {paths : List Path}
    {directory : Option Location} {sources : List Location} (hpaths : paths.isEmpty = false)
    (hdirectory : Disk.resolve? t here c.directory = .ok directory)
    (hsources : Disk.resolveAll t here paths = .ok sources) (tell : Telling T)
    (execute : Executor T) :
    c.collectOn tell t here execute paths =
      c.callOn tell t here (directory.getD here) execute sources := by
  unfold collectOn
  simp only [hpaths, hdirectory, hsources, Bool.false_eq_true, if_false]

end

variable {c : Compiler} {w : Workspace} {s : Staging} {here : Location}
  {config : Option Location} {sources : List Location}

/-- What the listing of a call is read as. -/
def Called.diagnostics (called : Called) (here : Location) : Except Failure (List Diagnostic) :=
  called.output.bind fun output => (Listing.read here output.toList).mapError .unresolved

/-- Once files are staged, what a run gives is what the call gives, moved back. -/
theorem result_callOn (hconfig : resolve? w c.config = .ok config)
    (henter : Staging.enter w.tree sources = (s, none)) (execute : Executor) :
    (c.callOn (told w.directory) w.tree w.directory here execute sources).collected.result =
      ((c.call here config execute s).diagnostics here).bind fun ds =>
        (s.mapBack w.directory ds).map Diagnostic.tidy := by
  unfold callOn
  rw [henter]
  dsimp only
  rw [Disk.resolve?_tree, hconfig]
  dsimp only
  unfold Called.diagnostics told
  cases (c.call here config execute s).output with
  | error f => rfl
  | ok output =>
    simp only [Except.bind, bind]
    cases (Listing.read here output.toList).mapError Failure.unresolved with
    | error f => rfl
    | ok ds =>
      dsimp only
      -- by then the copies are gone from the tree, which tells nothing of where they were
      have hback : (Staging.cleaned { s with tree := (c.call here config execute s).tree }).mapBack
          w.directory ds = s.mapBack w.directory ds := Staging.mapBack_eq_of_copies (by rfl) _ _
      rw [hback]
      cases s.mapBack w.directory ds with
      | error f => rfl
      | ok back => rfl

/-- A configuration file that cannot be resolved stops a run. -/
theorem result_callOn_of_config {f : Failure} (hconfig : resolve? w c.config = .error f)
    (henter : Staging.enter w.tree sources = (s, none)) (execute : Executor) :
    (c.callOn (told w.directory) w.tree w.directory here execute sources).collected.result =
      .error f := by
  unfold callOn
  rw [henter]
  dsimp only
  rw [Disk.resolve?_tree, hconfig]
  rfl

/-- Files that cannot be staged stop a run. -/
theorem result_callOn_of_failure {f : Failure}
    (henter : Staging.enter w.tree sources = (s, some f)) (execute : Executor) :
    (c.callOn (told w.directory) w.tree w.directory here execute sources).collected.result =
      .error f := by
  unfold callOn
  rw [henter]

variable {paths : List Path} {directory : Option Location}

/-- Collecting diagnostics is a run on the places of the files, if these can be told. -/
theorem collect_of_resolved (hpaths : paths.isEmpty = false)
    (hdirectory : resolve? w c.directory = .ok directory)
    (hsources : w.resolveAll paths = .ok sources) (execute : Executor) :
    c.collect w execute paths =
      c.callOn (told w.directory) w.tree w.directory (directory.getD w.directory) execute
        sources := by
  refine collectOn_of_resolved hpaths ?_ ?_ (told w.directory) execute
  · rw [Disk.resolve?_tree, hdirectory]
  · rw [Disk.resolveAll_tree, hsources]

/-- What collecting diagnostics gives, if no stage before the call stops it. -/
theorem result_collect (hpaths : paths.isEmpty = false)
    (hdirectory : resolve? w c.directory = .ok directory)
    (hsources : w.resolveAll paths = .ok sources) (hconfig : resolve? w c.config = .ok config)
    (henter : Staging.enter w.tree sources = (s, none)) (execute : Executor) :
    (c.collect w execute paths).collected.result =
      ((c.call (directory.getD w.directory) config execute s).diagnostics
        (directory.getD w.directory)).bind fun ds =>
          (s.mapBack w.directory ds).map Diagnostic.tidy := by
  rw [collect_of_resolved hpaths hdirectory hsources]
  exact result_callOn hconfig henter execute

/-- Files that cannot be staged stop the collecting. -/
theorem result_collect_of_failure {f : Failure} (hpaths : paths.isEmpty = false)
    (hdirectory : resolve? w c.directory = .ok directory)
    (hsources : w.resolveAll paths = .ok sources)
    (henter : Staging.enter w.tree sources = (s, some f)) (execute : Executor) :
    (c.collect w execute paths).collected.result = .error f := by
  rw [collect_of_resolved hpaths hdirectory hsources]
  exact result_callOn_of_failure henter execute

end Compiler

end ExpectedDiagnostics
