import ExpectedDiagnostics.Proofs.Compiler.Collect
import ExpectedDiagnostics.Proofs.Staging.Entering

/-!
# What a run of the compiler does to the disk

A run writes copies and a project file, all of them where nothing was, and removes them at its end,
wherever this end comes: at an input that leads nowhere, at a file that cannot be staged, at the
project file, at the command line, at what the compiler says, or when all is done. So on any disk on
which staging can be undone, and on which a file that is made at a free place can be removed again,
a run leaves the disk as it was.

Main results:

* `tree_call`, `mem_calls_call` — a call leaves the disk that it was given, and finds the project
  file more on it.
* `tree_callOn`, `mem_calls_callOn` — a run, as far as staging and the call go.
* `collect_leavesTree` — a run on a tree without links leaves it as it was, and its call finds the
  project file and the copies more.
-/

namespace ExpectedDiagnostics

namespace Compiler

section

variable {T : Type} [Disk T] {c : Compiler} {execute : Executor T} {s : Staging T} {t : T}
  {tell : Telling T} {here directory : Location} {config : Option Location}
  {sources : List Location} {call : Call T}

/-! ## The call -/

/-- **A call leaves the disk that it was given**, whatever comes of it, if its project can be
written and the project file can be removed again. -/
theorem tree_call (hwrite : Json.canWrite (c.project config s.places) = true)
    (hremove : ∀ content, Disk.remove
      (Disk.create s.tree (projectPlace s.tree (projectDirectory here config)) content)
      (projectPlace s.tree (projectDirectory here config)) = s.tree) :
    (c.call here config execute s).tree = s.tree := by
  unfold call
  dsimp only
  rw [hwrite]
  cases Disk.reach s.tree (projectPlace s.tree (projectDirectory here config)) with
  | error f => rfl
  | ok _ =>
    cases ShellWords.split c.command with
    | error f => exact hremove _
    | ok words => exact hremove _

/-- The compiler finds one file more, the project file. -/
theorem mem_calls_call (hcall : call ∈ (c.call here config execute s).calls) :
    call.projectPlace = projectPlace s.tree (projectDirectory here config) ∧
      Disk.reach s.tree call.projectPlace = .ok () ∧
      call.tree = Disk.create s.tree call.projectPlace
        (Utf8.encode (Json.indented call.project).toList) := by
  unfold Compiler.call at hcall
  dsimp only at hcall
  -- there is a call only if the project file can be written and the command line has words
  split at hcall
  · exact absurd hcall List.not_mem_nil
  rename_i hreach
  split at hcall
  · exact absurd hcall List.not_mem_nil
  split at hcall
  · exact absurd hcall List.not_mem_nil
  · rw [List.mem_singleton.mp hcall]
    exact ⟨rfl, hreach, rfl⟩

/-! ## The run -/

/-- Only where no path is given, none is resolved. -/
theorem eq_none_of_resolve? {p : Option Path} (h : Disk.resolve? t here p = .ok none) :
    p = none := by
  cases p with
  | none => rfl
  | some p =>
    have h : (Disk.resolve t here p).map some = .ok none := h
    cases hplace : Disk.resolve t here p with
    | error f =>
      rw [hplace] at h
      exact nomatch h
    | ok place =>
      rw [hplace] at h
      exact nomatch h

/-- **A run leaves the disk as it was**, if staging does and the call leaves the staged files. -/
theorem tree_callOn
    (hstopped : ∀ {s f}, Staging.enter t sources = (s, some f) → s.tree = t)
    (hcleaned : ∀ {s}, Staging.enter t sources = (s, none) → s.cleaned.tree = t)
    (hcall : ∀ {s config}, Staging.enter t sources = (s, none) →
      Disk.resolve? s.tree here c.config = .ok config →
        (c.call directory config execute s).tree = s.tree) :
    (c.callOn tell t here directory execute sources).tree = t := by
  unfold callOn
  obtain ⟨s, failure, henter⟩ :
      ∃ s failure, Staging.enter t sources = (s, failure) := ⟨_, _, rfl⟩
  rw [henter]
  cases failure with
  | some f => exact hstopped henter
  -- whatever comes of the call, it leaves the disk with the copies, and these are removed
  | none =>
    dsimp only
    cases hconfig : Disk.resolve? s.tree here c.config with
    | error f => exact hcleaned henter
    | ok config =>
      dsimp only
      rw [hcall henter hconfig]
      exact hcleaned henter

/-- The call of a run is one that staged files are given to. -/
theorem mem_calls_callOn (h : call ∈ (c.callOn tell t here directory execute sources).calls) :
    ∃ s config, Staging.enter t sources = (s, none) ∧
      call ∈ (c.call directory config execute s).calls := by
  unfold callOn at h
  obtain ⟨s, failure, henter⟩ :
      ∃ s failure, Staging.enter t sources = (s, failure) := ⟨_, _, rfl⟩
  rw [henter] at h
  cases failure with
  | some f => exact absurd h List.not_mem_nil
  | none =>
    dsimp only at h
    cases hconfig : Disk.resolve? s.tree here c.config with
    | error f =>
      rw [hconfig] at h
      exact absurd h List.not_mem_nil
    | ok config =>
      rw [hconfig] at h
      exact ⟨s, config, henter, h⟩

end

/-! ## Without links -/

variable {c : Compiler} {w : Workspace} {execute : Executor} {tell : Telling}
  {here directory : Location} {sources : List Location}

/-- The place of the project file is free. -/
theorem entry?_projectPlace (t : FileTree) (here : Location) :
    t.entry? (projectPlace t here) = none := by
  obtain ⟨n, hplace, hfree, -⟩ := projectPlace_spec t here
  rw [hplace]
  exact hfree

/-- What staging files does to the tree: it comes to an end with their copies more, which are gone
when it is left, or it is stopped and nothing is changed. -/
def StagingLeavesTree (w : Workspace) (sources : List Location) : Prop :=
  match Staging.enter w.tree sources with
  | (s, none) => w.tree.Adds s.tree (Staging.copyFiles w sources) ∧ s.cleaned.tree = w.tree
  | (s, some _) => s.tree = w.tree

theorem stagingLeavesTree (hroot : w.tree.entry? .root = some .directory)
    (hcanonical : ∀ source ∈ sources, source.IsCanonical) : StagingLeavesTree w sources := by
  unfold StagingLeavesTree
  split
  · rename_i s henter
    have hentered := Staging.entered_enter hroot hcanonical henter
    exact ⟨hentered.adds, Staging.tree_cleaned hentered⟩
  · rename_i s f henter
    exact Staging.tree_enter_of_failure hroot hcanonical henter

theorem tree_callOn_tree (hroot : w.tree.entry? .root = some .directory)
    (hcanonical : ∀ source ∈ sources, source.IsCanonical)
    (hoptions : c.config = none → Json.canWrite (.table c.options) = true) :
    (c.callOn tell w.tree here directory execute sources).tree = w.tree := by
  refine tree_callOn (Staging.tree_enter_of_failure hroot hcanonical)
    (fun henter => Staging.tree_cleaned (Staging.entered_enter hroot hcanonical henter))
    fun _ hconfig => tree_call ?_ fun content => ?_
  · exact canWrite_project (fun hnone => hoptions (eq_none_of_resolve? (hnone ▸ hconfig))) _
  · exact FileTree.remove_write (entry?_projectPlace _ _) content

theorem adds_callOn_tree (hroot : w.tree.entry? .root = some .directory)
    (hcanonical : ∀ source ∈ sources, source.IsCanonical) {call : Call}
    (hcall : call ∈ (c.callOn tell w.tree here directory execute sources).calls) :
    w.tree.Adds call.tree (Staging.copyFiles w sources ++
      [(call.projectPlace, Utf8.encode (Json.indented call.project).toList)]) := by
  obtain ⟨s, config, henter, hcall⟩ := mem_calls_callOn hcall
  obtain ⟨hplace, -, htree⟩ := mem_calls_call hcall
  have hfree := entry?_projectPlace s.tree (projectDirectory directory config)
  rw [← hplace] at hfree
  rw [htree]
  exact (Staging.entered_enter hroot hcanonical henter).adds.write hfree _

/-- **A run leaves the tree as it was**, whatever the inputs are and whatever comes of the call. The
compiler finds the project file and the copies of the annotated files more in it, and nothing else
changed. Staging alone leaves the tree as it was, too. -/
theorem collect_leavesTree (c : Compiler) (w : Workspace) (execute : Executor)
    (inputs : List String) (hdirectory : w.directory.IsCanonical)
    (hroot : w.tree.entry? .root = some .directory)
    (hoptions : c.config = none → Json.canWrite (.table c.options) = true) :
    (c.collect w execute (inputs.map Path.ofString)).tree = w.tree ∧
      (∀ call ∈ (c.collect w execute (inputs.map Path.ofString)).calls, ∃ sources,
        w.resolveAll (inputs.map Path.ofString) = .ok sources ∧
          w.tree.Adds call.tree (Staging.copyFiles w sources ++
            [(call.projectPlace, Utf8.encode (Json.indented call.project).toList)])) ∧
      ∀ sources, w.resolveAll (inputs.map Path.ofString) = .ok sources →
        StagingLeavesTree w sources := by
  have hcanonical {sources : List Location}
      (h : w.resolveAll (inputs.map Path.ofString) = .ok sources) :
      ∀ source ∈ sources, source.IsCanonical := isCanonical_of_resolveAll hdirectory h
  refine ⟨?_, ?_, fun sources hsources => stagingLeavesTree hroot (hcanonical hsources)⟩
  · rcases c.collectOn_cases (told w.directory) w.tree w.directory execute
      (inputs.map Path.ofString) with ⟨result, heq, -⟩ | ⟨directory, sources, hsources, heq⟩
    · exact congrArg Compiled.tree heq
    · rw [Disk.resolveAll_tree] at hsources
      exact (congrArg Compiled.tree heq).trans
        (tree_callOn_tree hroot (hcanonical hsources) hoptions)
  · intro call hcall
    rcases c.collectOn_cases (told w.directory) w.tree w.directory execute
      (inputs.map Path.ofString) with ⟨result, heq, -⟩ | ⟨directory, sources, hsources, heq⟩
    · exact absurd (congrArg Compiled.calls heq ▸ hcall) List.not_mem_nil
    · rw [Disk.resolveAll_tree] at hsources
      have hcalls := congrArg Compiled.calls heq
      exact ⟨sources, hsources, adds_callOn_tree hroot (hcanonical hsources) (hcalls ▸ hcall)⟩

end Compiler

end ExpectedDiagnostics
