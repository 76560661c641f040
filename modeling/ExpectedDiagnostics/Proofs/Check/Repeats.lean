import ExpectedDiagnostics.Proofs.Check.InTurn
import ExpectedDiagnostics.Proofs.Source

/-!
# Files that are named more than once

Naming a file more than once makes no difference to the status of a check, unless all files are in
order and one that is named again has an annotation: then the check fails that would have passed.

Main results:

* `perform_repeated_exitStatus` — the status of a check of any files.
* `perform_repeats` — a check and the same one without the repetitions, side by side.
-/

namespace ExpectedDiagnostics

namespace Check

variable {directory : Location} {unexpected : Bool} {ds : List Diagnostic}
  {file : Source × List CommentGroup} {seen files : List (Source × List CommentGroup)}

/-! ## Without the repetitions -/

section

variable {α γ : Type} [DecidableEq γ] {key : α → γ}

/-- The elements of a list without those whose key an earlier one has. -/
def firsts (key : α → γ) : List α → List α
  | [] => []
  | x :: xs => x :: (firsts key xs).filter fun y => key y != key x

theorem firsts_sublist (key : α → γ) (xs : List α) : (firsts key xs).Sublist xs := by
  induction xs with
  | nil => exact .refl _
  | cons x xs ih => exact (List.filter_sublist.trans ih).cons_cons x

theorem exists_mem_firsts {xs : List α} {x : α} (hx : x ∈ xs) :
    ∃ y ∈ firsts key xs, key y = key x := by
  induction xs with
  | nil => exact absurd hx List.not_mem_nil
  | cons first xs ih =>
    by_cases hfirst : key x = key first
    · exact ⟨first, List.mem_cons_self, hfirst.symm⟩
    · rcases List.mem_cons.mp hx with rfl | hx
      · exact absurd rfl hfirst
      obtain ⟨y, hy, hkey⟩ := ih hx
      refine ⟨y, List.mem_cons_of_mem _ (List.mem_filter.mpr ⟨hy, ?_⟩), hkey⟩
      rw [bne_iff_ne, hkey]
      exact hfirst

theorem nodup_map_firsts (key : α → γ) (xs : List α) : ((firsts key xs).map key).Nodup := by
  induction xs with
  | nil => exact List.nodup_nil
  | cons x xs ih =>
    rw [firsts, List.map_cons, List.nodup_cons]
    refine ⟨fun hmem => ?_, ih.sublist (List.filter_sublist.map key)⟩
    obtain ⟨y, hy, hkey⟩ := List.mem_map.mp hmem
    exact bne_iff_ne.mp (List.mem_filter.mp hy).2 hkey

end

section

variable {w : Workspace} {paths : List Path} {sources : List Source}

/-- Source files are loaded from the paths in their order. -/
theorem map_path_of_load (h : load w paths = .ok sources) : sources.map (·.path) = paths := by
  induction paths generalizing sources with
  | nil =>
    obtain rfl := Except.ok.inj h
    rfl
  | cons path paths ih =>
    obtain ⟨source, hsource, h⟩ := exists_of_bind_eq_ok h
    obtain ⟨rest, hrest, h⟩ := exists_of_bind_eq_ok h
    obtain rfl := Except.ok.inj h
    rw [List.map_cons, Source.path_of_load hsource, ih hrest]

/-- Each source file that was loaded was loaded from its path. -/
theorem load_of_mem (hload : load w paths = .ok sources) {s : Source} (hs : s ∈ sources) :
    Source.load w s.path = .ok s := by
  induction paths generalizing sources with
  | nil =>
    obtain rfl := Except.ok.inj hload
    exact absurd hs List.not_mem_nil
  | cons path paths ih =>
    obtain ⟨first, hfirst, hload⟩ := exists_of_bind_eq_ok hload
    obtain ⟨rest, hrest, hload⟩ := exists_of_bind_eq_ok hload
    obtain rfl := Except.ok.inj hload
    rcases List.mem_cons.mp hs with rfl | hs
    · rwa [Source.path_of_load hfirst]
    · exact ih hrest hs

/-- What is kept of the paths is loaded as what is kept of the files. -/
theorem load_filter (hload : load w paths = .ok sources) (keep : Path → Bool) :
    load w (paths.filter keep) = .ok (sources.filter fun s => keep s.path) := by
  induction paths generalizing sources with
  | nil =>
    obtain rfl := Except.ok.inj hload
    rfl
  | cons path paths ih =>
    obtain ⟨first, hfirst, hload⟩ := exists_of_bind_eq_ok hload
    obtain ⟨rest, hrest, hload⟩ := exists_of_bind_eq_ok hload
    obtain rfl := Except.ok.inj hload
    rw [List.filter_cons, List.filter_cons, Source.path_of_load hfirst]
    split
    · rw [load, hfirst, ih hrest]
      rfl
    · exact ih hrest

/-- The first path of each place is loaded as the first file of it. -/
theorem load_firsts (hload : load w paths = .ok sources) :
    load w (firsts (·.place w.directory) paths) =
      .ok (firsts (fun s => s.path.place w.directory) sources) := by
  induction paths generalizing sources with
  | nil =>
    obtain rfl := Except.ok.inj hload
    rfl
  | cons path paths ih =>
    obtain ⟨first, hfirst, hload⟩ := exists_of_bind_eq_ok hload
    obtain ⟨rest, hrest, hload⟩ := exists_of_bind_eq_ok hload
    obtain rfl := Except.ok.inj hload
    have hothers := load_filter (ih hrest) fun q => q.place w.directory != path.place w.directory
    rw [firsts, firsts, Source.path_of_load hfirst, load, hfirst, hothers]
    rfl

/-- Files at one place are loaded with the same text and dialect, by whichever spelling. -/
theorem load_same_of_mem (hdirectory : w.HasDirectory) (hload : load w paths = .ok sources)
    {s t : Source} (hs : s ∈ sources) (ht : t ∈ sources)
    (hplace : s.path.place w.directory = t.path.place w.directory) :
    s.text = t.text ∧ s.dialect = t.dialect :=
  Source.load_same hdirectory (load_of_mem hload hs) (load_of_mem hload ht) hplace

/-! ## The status of a check of any files -/

variable {collect : List Path → Collected}

/-- A check fails with an internal problem exactly if the comments and the markers of some file
disagree. Otherwise it passes exactly if each file is in order with what the ones before it have
left. -/
theorem perform_orderedFrom (unexpected : Bool) (walk : String → Dialect → List CommentGroup)
    (hload : load w paths = .ok sources)
    (hcollect : (collect (sources.map (·.path))).result = .ok ds)
    (hds : Diagnostic.AllResolve w.directory ds) :
    let result := (perform w (withGroups walk) collect unexpected paths).result
    let files := withGroups walk sources
    (Internal result ↔ ∃ file ∈ files, Run.Disagrees file.1 file.2) ∧
      (¬ Internal result → ∃ summary, result = .ok summary ∧
        (summary.exitStatus = 0 ∨ summary.exitStatus = 1) ∧
        (summary.exitStatus = 0 ↔ OrderedFrom w.directory unexpected ds [] files)) := by
  obtain ⟨ix, run, hix, hrun, -, hresult⟩ :=
    perform_eq unexpected (withGroups walk) hload hcollect hds
  have hclosed : run.current = none := by rw [hrun]; rfl
  have htotals : run.totals = 0 := by rw [hrun]; rfl
  have hun : run.unexpected = unexpected := by rw [hrun]; rfl
  have hpassed : run.summary.passed = true := by
    rw [hrun]
    cases unexpected <;> rfl
  have hremaining : HoldsRemaining w.directory ds ix [] (withGroups walk sources) := by
    intro file hfile
    rw [hix file hfile, remaining_eq_about fun g hg => absurd hg List.not_mem_nil]
    exact fun _ => rfl
  have hok (hgood : ∀ file ∈ withGroups walk sources, ¬ Run.Disagrees file.1 file.2) :=
    checkAll_passed_iff hclosed (htotals ▸ Counts.Nonnegative.zero) hremaining hgood
  dsimp only
  rw [hresult]
  have hinternal : Internal (checkAll w.directory run ix (withGroups walk sources)).2 ↔
      ∃ file ∈ withGroups walk sources, Run.Disagrees file.1 file.2 := by
    refine ⟨?_, checkAll_internal_of_disagrees hclosed⟩
    rintro ⟨p, hp, -⟩
    by_contra hgood
    push Not at hgood
    obtain ⟨summary, hsummary, -⟩ := hok hgood
    exact nomatch hp.symm.trans hsummary
  refine ⟨hinternal, fun hnot => ?_⟩
  obtain ⟨summary, hsummary, hiff⟩ :=
    hok fun file hfile hbad => hnot (hinternal.mpr ⟨file, hfile, hbad⟩)
  rw [hun, and_iff_right hpassed] at hiff
  exact ⟨summary, hsummary, summary.exitStatus_cases, RunSummary.exitStatus_eq_zero_iff.trans hiff⟩

/-! ## With and without the repetitions -/

/-- A file is named again, by this spelling or another one, that has an annotation. -/
def RepeatsAnnotated (directory : Location) (files : List (Source × List CommentGroup)) : Prop :=
  ∃ before file after, files = before ++ file :: after ∧
    placeOf directory file ∈ before.map (placeOf directory) ∧ ∃ g ∈ file.2, g.isMarked = true

theorem not_repeatsAnnotated_iff :
    ¬ RepeatsAnnotated directory files ↔
      ∀ file, NamedAgain directory [] files file → Unannotated file := by
  unfold RepeatsAnnotated NamedAgain Unannotated
  constructor
  · rintro hnot file ⟨before, after, hsplit, g, hg, hplace⟩ c hc
    by_contra hmarked
    rw [Bool.not_eq_false] at hmarked
    have hmem := List.mem_map_of_mem (f := placeOf directory) (hg.resolve_left List.not_mem_nil)
    exact hnot ⟨before, file, after, hsplit, hplace ▸ hmem, c, hc, hmarked⟩
  · rintro hall ⟨before, file, after, hsplit, hmem, c, hc, hmarked⟩
    obtain ⟨g, hg, hplace⟩ := List.mem_map.mp hmem
    have hunmarked := hall file ⟨before, after, hsplit, g, .inr hg, hplace⟩ c hc
    exact Bool.false_ne_true (hunmarked.symm.trans hmarked)

/-- Files of which no two are at one place do not repeat any. -/
theorem not_repeatsAnnotated_of_nodup (h : (files.map (placeOf directory)).Nodup) :
    ¬ RepeatsAnnotated directory files := by
  rintro ⟨before, file, after, rfl, hmem, -⟩
  rw [List.map_append, List.map_cons, List.nodup_append] at h
  exact h.2.2 _ hmem _ List.mem_cons_self rfl

/-- The files without the repetitions have the same ones among them as all of them. -/
theorem forall_firsts_iff {P : Source → Prop}
    (hsame : ∀ s ∈ sources, ∀ t ∈ sources,
      s.path.place directory = t.path.place directory → (P s ↔ P t)) :
    (∀ s ∈ firsts (fun s => s.path.place directory) sources, P s) ↔ ∀ s ∈ sources, P s := by
  have hmem {s : Source} (hs : s ∈ firsts (fun s => s.path.place directory) sources) :
      s ∈ sources := (firsts_sublist _ sources).mem hs
  refine ⟨fun hall s hs => ?_, fun hall s hs => hall s (hmem hs)⟩
  obtain ⟨t, ht, hplace⟩ : ∃ t ∈ firsts (fun s => s.path.place directory) sources,
      t.path.place directory = s.path.place directory := exists_mem_firsts hs
  exact (hsame t (hmem ht) s hs hplace).mp (hall t ht)

/-- The check of any files, however often and by whichever spelling they are named: when it fails,
and when its status is 0. -/
theorem perform_repeated_exitStatus (unexpected : Bool)
    (walk : String → Dialect → List CommentGroup) (hdirectory : w.HasDirectory)
    (hload : load w paths = .ok sources)
    (hcollect : (collect (sources.map (·.path))).result = .ok ds)
    (hds : Diagnostic.AllResolve w.directory ds) :
    let result := (perform w (withGroups walk) collect unexpected paths).result
    (Internal result ↔ ∃ s ∈ sources, Run.Disagrees s (walk s.text s.dialect)) ∧
      (¬ Internal result → ∃ summary, result = .ok summary ∧
        (summary.exitStatus = 0 ∨ summary.exitStatus = 1) ∧
        (summary.exitStatus = 0 ↔
          (∀ s ∈ sources, CommentGroup.InOrder unexpected
            (Diagnostic.about w.directory (s.path.place w.directory) ds)
            (walk s.text s.dialect)) ∧
          ¬ RepeatsAnnotated w.directory (withGroups walk sources))) := by
  obtain ⟨hinternal, hok⟩ := perform_orderedFrom unexpected walk hload hcollect hds
  have hsame : ∀ f ∈ [] ++ withGroups walk sources, ∀ g ∈ [] ++ withGroups walk sources,
      placeOf w.directory f = placeOf w.directory g → f.2 = g.2 := by
    intro f hf g hg hplace
    obtain ⟨s, hs, rfl⟩ := List.mem_map.mp hf
    obtain ⟨t, ht, rfl⟩ := List.mem_map.mp hg
    obtain ⟨htext, hdialect⟩ := load_same_of_mem hdirectory hload hs ht hplace
    rw [htext, hdialect]
  have hfiles {P : Source × List CommentGroup → Prop} :
      (∀ file ∈ withGroups walk sources, P file) ↔
        ∀ s ∈ sources, P (s, walk s.text s.dialect) := by
    unfold withGroups
    exact List.forall_mem_map
  dsimp only at hinternal hok ⊢
  refine ⟨?_, fun hnot => ?_⟩
  · rw [hinternal, ← not_iff_not]
    push Not
    exact hfiles
  · obtain ⟨summary, hsummary, hstatus, hiff⟩ := hok hnot
    rw [orderedFrom_iff hsame, hfiles, ← not_repeatsAnnotated_iff] at hiff
    exact ⟨summary, hsummary, hstatus, hiff⟩

/-- The same check without the repetitions: it fails in the same way, and its status is 0 exactly if
all files are in order. -/
theorem perform_firsts_exitStatus (unexpected : Bool)
    (walk : String → Dialect → List CommentGroup) (hdirectory : w.HasDirectory)
    (hload : load w paths = .ok sources)
    (hcollect : (collect ((firsts (fun s => s.path.place w.directory) sources).map
      (·.path))).result = .ok ds)
    (hds : Diagnostic.AllResolve w.directory ds) :
    let result := (perform w (withGroups walk) collect unexpected
      (firsts (·.place w.directory) paths)).result
    (Internal result ↔ ∃ s ∈ sources, Run.Disagrees s (walk s.text s.dialect)) ∧
      (¬ Internal result → ∃ summary, result = .ok summary ∧
        (summary.exitStatus = 0 ∨ summary.exitStatus = 1) ∧
        (summary.exitStatus = 0 ↔ ∀ s ∈ sources, CommentGroup.InOrder unexpected
          (Diagnostic.about w.directory (s.path.place w.directory) ds)
          (walk s.text s.dialect))) := by
  obtain ⟨hinternal, hok⟩ := perform_repeated_exitStatus unexpected walk hdirectory
    (load_firsts hload) hcollect hds
  dsimp only at hinternal hok ⊢
  refine ⟨?_, fun hnot => ?_⟩
  -- the file that disagrees may be a repetition, but then the first one disagrees as well
  · rw [hinternal, ← not_iff_not]
    push Not
    refine forall_firsts_iff fun s hs t ht hplace => ?_
    obtain ⟨htext, hdialect⟩ := load_same_of_mem hdirectory hload hs ht hplace
    unfold Run.Disagrees
    rw [htext, hdialect]
  · obtain ⟨summary, hsummary, hstatus, hiff⟩ := hok hnot
    have hnodup : ((withGroups walk (firsts (fun s => s.path.place w.directory) sources)).map
        (placeOf w.directory)).Nodup := by
      rw [map_placeOf_withGroups]
      exact nodup_map_firsts _ _
    refine ⟨summary, hsummary, hstatus, ?_⟩
    rw [hiff, and_iff_left (not_repeatsAnnotated_of_nodup hnodup)]
    refine forall_firsts_iff fun s hs t ht hplace => ?_
    obtain ⟨htext, hdialect⟩ := load_same_of_mem hdirectory hload hs ht hplace
    rw [hplace, htext, hdialect]

/-- **Naming a file more than once** makes no difference to whether a check fails with an internal
problem, nor to its status, unless this would be 0 without the repetitions and a file that is named
again has an annotation: then it is 1. -/
theorem perform_repeats {collect' : List Path → Collected} (unexpected : Bool)
    (walk : String → Dialect → List CommentGroup) (hdirectory : w.HasDirectory)
    (hload : load w paths = .ok sources)
    (hcollect : (collect (sources.map (·.path))).result = .ok ds)
    (hcollect' : (collect' ((firsts (fun s => s.path.place w.directory) sources).map
      (·.path))).result = .ok ds) :
    let checked := perform w (withGroups walk) collect unexpected paths
    let once := perform w (withGroups walk) collect' unexpected (firsts (·.place w.directory) paths)
    let repeats := RepeatsAnnotated w.directory (withGroups walk sources)
    (Internal checked.result ↔ Internal once.result) ∧
      (Diagnostic.AllResolve w.directory ds → ¬ Internal checked.result →
        ∃ summary, checked.result = .ok summary) ∧
      ∀ summary, checked.result = .ok summary → ∃ summary', once.result = .ok summary' ∧
        (summary'.exitStatus = 0 ∧ repeats → summary.exitStatus = 1) ∧
        (¬ (summary'.exitStatus = 0 ∧ repeats) → summary.exitStatus = summary'.exitStatus) := by
  dsimp only
  by_cases hds : Diagnostic.AllResolve w.directory ds
  · obtain ⟨hinternal, hok⟩ :=
      perform_repeated_exitStatus unexpected walk hdirectory hload hcollect hds
    obtain ⟨hinternal', hok'⟩ :=
      perform_firsts_exitStatus unexpected walk hdirectory hload hcollect' hds
    have hagree := hinternal.trans hinternal'.symm
    refine ⟨hagree, fun _ hnot => ?_, fun summary hsummary => ?_⟩
    · obtain ⟨summary, hsummary, -⟩ := hok hnot
      exact ⟨summary, hsummary⟩
    have hnot : ¬ Internal (perform w (withGroups walk) collect unexpected paths).result := by
      rintro ⟨p, hp, -⟩
      exact nomatch hsummary.symm.trans hp
    obtain ⟨other, hother, hstatus, hiff⟩ := hok hnot
    obtain rfl := Except.ok.inj (hsummary.symm.trans hother)
    obtain ⟨summary', hsummary', hstatus', hiff'⟩ := hok' fun h => hnot (hagree.mpr h)
    -- both statuses are 0 or 1, and the one with the repetitions is 0 if the other one is and no
    -- annotation is repeated
    rw [← hiff'] at hiff
    refine ⟨summary', hsummary', fun ⟨_, hrepeats⟩ => ?_, fun hno => ?_⟩
    · exact hstatus.resolve_left fun hzero => (hiff.mp hzero).2 hrepeats
    · by_cases hzero : summary'.exitStatus = 0
      · rw [hzero]
        exact hiff.mpr ⟨hzero, fun hrepeats => hno ⟨hzero, hrepeats⟩⟩
      · rw [hstatus'.resolve_left hzero]
        exact hstatus.resolve_left fun h => hzero (hiff.mp h).1
  -- diagnostics that cannot be put into an index end both checks before the first file
  · rw [perform_of_not_allResolve unexpected (withGroups walk) hload hcollect hds,
      perform_of_not_allResolve unexpected (withGroups walk) (load_firsts hload) hcollect' hds]
    exact ⟨Iff.rfl, fun h => absurd h hds, fun summary hsummary => nomatch hsummary⟩

end

/-! ## Two files, one of them named again -/

/-- The paths of the two files, and that of the one without annotations in another spelling. -/
def repeatedPaths : List Path :=
  [.ofString "a.ts", .ofString "b.ts", .ofString "/b.ts"]

theorem hasDirectory_pairWorkspace : pairWorkspace.HasDirectory := by
  intro front hfront
  obtain rfl := List.prefix_nil.mp hfront
  rfl

/-- The file without annotations is named again, which makes no difference. -/
theorem checkPair_repeats :
    ∃ summary summary', (checkPair [pairDiagnostic] repeatedPaths).result = .ok summary ∧
      (checkPair [pairDiagnostic] (firsts (·.place .root) repeatedPaths)).result = .ok summary' ∧
      summary.exitStatus = summary'.exitStatus := by
  have hload : load pairWorkspace repeatedPaths =
      .ok (pairSources ++ [⟨.ofString "/b.ts", ""⟩]) := rfl
  obtain ⟨-, -, h⟩ := perform_repeats true (fun text _ => [⟨0, [text]⟩])
    hasDirectory_pairWorkspace hload (result_given [pairDiagnostic] _)
    (result_given [pairDiagnostic] _)
  obtain ⟨summary', hsummary', -, hsame⟩ := h ⟨⟨1, 0, 0⟩, 3, [], true⟩ rfl
  refine ⟨_, summary', rfl, hsummary', hsame fun ⟨_, hrepeats⟩ => ?_⟩
  -- the only file that is named again is one without annotations
  refine not_repeatsAnnotated_iff.mpr (fun file hagain => ?_) hrepeats
  simp only [withGroups, pairSources, List.cons_append, List.nil_append, List.map_cons,
    List.map_nil, namedAgain_cons] at hagain
  rcases hagain with ⟨-, g, hg, -⟩ | ⟨-, g, hg, hplace⟩ | ⟨rfl, -⟩ | ⟨before, after, hsplit, -⟩
  · exact absurd hg List.not_mem_nil
  · rw [List.mem_singleton.mp hg] at hplace
    exact absurd hplace (by decide)
  · intro g hg
    rw [List.mem_singleton.mp hg]
    rfl
  · exact absurd hsplit (by simp)

/-- The file with an annotation is named again, which makes the check fail. -/
theorem checkPair_annotated_twice :
    ∃ summary summary',
      (checkPair [pairDiagnostic] [.ofString "a.ts", .ofString "a.ts"]).result = .ok summary ∧
      (checkPair [pairDiagnostic]
        (firsts (·.place .root) [.ofString "a.ts", .ofString "a.ts"])).result = .ok summary' ∧
      summary.exitStatus ≠ summary'.exitStatus :=
  ⟨_, _, rfl, rfl, by decide⟩

end Check

end ExpectedDiagnostics
