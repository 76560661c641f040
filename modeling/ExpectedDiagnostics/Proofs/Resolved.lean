import ExpectedDiagnostics.CommandLine
import ExpectedDiagnostics.Proofs.Compiler.Stages
import ExpectedDiagnostics.Proofs.Diagnostic.Tidy
import ExpectedDiagnostics.Proofs.Index.Program
import ExpectedDiagnostics.Proofs.Torn

/-!
# Diagnostics whose files can be resolved

A checker resolves the files of its diagnostics before it hands them on, and what it writes down is
the text of a place. No name on the way to a place holds the null character, so this text can be
resolved again, from whatever directory. So the diagnostics that a check is given can all be
resolved.

Main results:

* `Capture.collect_resolves` / `Compiler.collect_resolves` — what is collected can be resolved.
* `collector_resolves` — whatever the command line asks to collect from.
-/

namespace ExpectedDiagnostics

/-! ## Diagnostics -/

namespace Diagnostic

/-- The file of a diagnostic is the text of a resolved path. -/
def Resolved (d : Diagnostic) : Prop :=
  ∀ file, d.file = some file → ∃ place : Location, NullFree place.names ∧ file = place.toString

theorem allResolve_of_resolved {ds : List Diagnostic} (h : ∀ d ∈ ds, d.Resolved)
    (directory : Location) : AllResolve directory ds := by
  intro d hd file hfile
  obtain ⟨place, hplace, rfl⟩ := h d hd file hfile
  exact Location.resolve_toString hplace directory

end Diagnostic

/-! ## Listings and records -/

theorem Listing.Header.resolved_toDiagnostic {h : Header} {directory : Location}
    {next : List Message} {d : Diagnostic} (hd : h.toDiagnostic directory next = .ok d) :
    d.Resolved := by
  unfold toDiagnostic at hd
  dsimp only at hd
  split at hd
  · obtain ⟨place, hplace, hd⟩ := exists_of_bind_eq_ok hd
    obtain rfl := Except.ok.inj hd
    intro file hfile
    exact ⟨place, Path.nullFree_of_resolve hplace, (Option.some.inj hfile).symm⟩
  · obtain rfl := Except.ok.inj hd
    intro file hfile
    exact absurd hfile (by simp)

theorem Listing.resolved_diagnosticsOf {directory : Location} {lines : List Line}
    {ds : List Diagnostic} (h : diagnosticsOf directory lines = .ok ds) : ∀ d ∈ ds, d.Resolved := by
  induction lines generalizing ds with
  | nil =>
    obtain rfl := Except.ok.inj h
    exact fun d hd => absurd hd List.not_mem_nil
  | cons line lines ih =>
    cases line with
    | header header =>
      rw [diagnosticsOf] at h
      obtain ⟨first, hfirst, h⟩ := exists_of_bind_eq_ok h
      obtain ⟨rest, hrest, h⟩ := exists_of_bind_eq_ok h
      obtain rfl := Except.ok.inj h
      exact List.forall_mem_cons.mpr ⟨Header.resolved_toDiagnostic hfirst, ih hrest⟩
    | continuation depth text => exact ih h
    | other => exact ih h

/-- The file of a record, once it has been resolved, as it is shown. -/
theorem Record.exists_of_resolveFile {directory : Location} {file : Option Text.Torn}
    {found : Text.Torn} (h : resolveFile directory file = .ok (some found)) :
    ∃ place : Location, NullFree place.names ∧ Text.shownPieces found = place.toString := by
  cases file with
  | none => exact absurd (Except.ok.inj h) (by simp)
  | some pieces =>
    obtain ⟨other, hresolve, heq⟩ := exists_of_map_eq_ok (exists_of_mapError_eq_ok h)
    rw [Option.some.inj heq] at hresolve
    obtain ⟨place, hplace, hfound⟩ :=
      (Path.resolveTorn_eq_ok_iff.mp hresolve).2 _ Path.meanNothing_shown
    exact ⟨place, Path.nullFree_of_resolve hplace, hfound⟩

theorem Record.resolved_readTorn {directory : Location} {item : Data} {d : Diagnostic Text.Torn}
    (h : readTorn directory item = .ok d) : d.shown.Resolved := by
  unfold readTorn at h
  split at h
  · obtain ⟨file, -, h⟩ := exists_of_bind_eq_ok h
    obtain ⟨message, -, h⟩ := exists_of_bind_eq_ok h
    obtain ⟨place, hplace, h⟩ := exists_of_bind_eq_ok h
    obtain ⟨line, -, h⟩ := exists_of_bind_eq_ok h
    obtain ⟨code, -, h⟩ := exists_of_bind_eq_ok h
    obtain ⟨column, -, h⟩ := exists_of_bind_eq_ok h
    obtain rfl := Except.ok.inj h
    intro name hname
    obtain ⟨found, rfl, rfl⟩ := Option.map_eq_some_iff.mp hname
    exact exists_of_resolveFile hplace
  · exact absurd h (by simp)

namespace Capture

theorem resolved_readRecords {directory : Location} {number : Nat} {items : List Data}
    {ds : List (Diagnostic Text.Torn)} (h : readRecords directory number items = .ok ds) :
    ∀ d ∈ ds, d.shown.Resolved := by
  induction items generalizing number ds with
  | nil =>
    obtain rfl := Except.ok.inj h
    exact fun d hd => absurd hd List.not_mem_nil
  | cons item items ih =>
    rw [readRecords] at h
    -- one record that cannot be read spoils them all
    cases hread : Record.readTorn directory item with
    | error f =>
      rw [hread] at h
      exact absurd h (by simp)
    | ok first =>
      rw [hread] at h
      obtain ⟨rest, hrest, h⟩ := exists_of_bind_eq_ok h
      obtain rfl := Except.ok.inj h
      exact List.forall_mem_cons.mpr ⟨Record.resolved_readTorn hread, ih hrest⟩

theorem resolved_ofRecords {directory : Location} {text : List Char}
    {ds : List (Diagnostic Text.Torn)} (h : ofRecords directory text = .ok ds) :
    ∀ d ∈ ds, d.shown.Resolved := by
  unfold ofRecords at h
  split at h
  · exact absurd h (by simp)
  · split at h
    · exact absurd h (by simp)
    · rename_i hread
      obtain rfl := Except.ok.inj h
      exact resolved_readRecords hread
  · exact absurd h (by simp)

theorem resolved_diagnosticsOf {c : Capture} {directory : Location} {text : List Char}
    {ds : List Diagnostic} (h : c.diagnosticsOf directory text = .ok ds) :
    ∀ d ∈ ds, d.Resolved := by
  unfold diagnosticsOf at h
  split at h
  · obtain ⟨torn, htorn, h⟩ := exists_of_bind_eq_ok h
    obtain rfl := Except.ok.inj h
    rw [List.forall_mem_map]
    exact fun d hd => resolved_ofRecords (exists_of_mapError_eq_ok htorn) d
      (Diagnostic.mem_of_mem_tidy hd)
  · obtain ⟨found, hfound, h⟩ := exists_of_bind_eq_ok h
    obtain rfl := Except.ok.inj h
    exact fun d hd => Listing.resolved_diagnosticsOf (exists_of_mapError_eq_ok hfound) d
      (Diagnostic.mem_of_mem_tidy hd)

/-- The diagnostics of a capture can be resolved, from any directory. -/
theorem collect_resolves {c : Capture} {w : Workspace} {ds : List Diagnostic}
    (h : c.collect w = .ok ds) (directory : Location) : Diagnostic.AllResolve directory ds := by
  unfold collect at h
  obtain ⟨text, -, h⟩ := exists_of_bind_eq_ok h
  exact Diagnostic.allResolve_of_resolved (resolved_diagnosticsOf h) directory

end Capture

/-! ## The compiler -/

namespace Staging

/-- The copies are copies of places without the null character. -/
def NullFreeSources (s : Staging) : Prop :=
  ∀ c ∈ s.copies, NullFree c.2.names

theorem nullFreeSources_add {s next : Staging} {source : Location} (h : s.NullFreeSources)
    (hsource : NullFree source.names) (hadd : s.add source = .ok next) : next.NullFreeSources := by
  unfold add at hadd
  dsimp only at hadd
  obtain ⟨text, -, hadd⟩ := exists_of_bind_eq_ok hadd
  split at hadd
  · obtain rfl := Except.ok.inj hadd
    exact h
  · obtain ⟨entry, -, hadd⟩ := exists_of_bind_eq_ok hadd
    split at hadd
    · exact nomatch hadd
    · obtain ⟨tree, -, hadd⟩ := exists_of_bind_eq_ok hadd
      obtain rfl := Except.ok.inj hadd
      intro c hc
      rcases List.mem_append.mp hc with hc | hc
      · exact h c hc
      · rwa [List.mem_singleton.mp hc]

theorem nullFreeSources_addAll {s : Staging} {sources : List Location} (h : s.NullFreeSources)
    (hsources : ∀ source ∈ sources, NullFree source.names) :
    (s.addAll sources).1.NullFreeSources := by
  induction sources generalizing s with
  | nil => exact h
  | cons source sources ih =>
    rw [addAll]
    cases hadd : s.add source with
    | error f => exact h
    | ok next =>
      exact ih (nullFreeSources_add h (hsources source List.mem_cons_self) hadd)
        fun x hx => hsources x (List.mem_cons_of_mem _ hx)

theorem nullFreeSources_enter {tree : FileTree} {sources : List Location}
    (hsources : ∀ source ∈ sources, NullFree source.names) :
    (enter tree sources).1.NullFreeSources := by
  have hall : ((start tree).addAll sources).1.NullFreeSources :=
    nullFreeSources_addAll (fun c hc => absurd hc List.not_mem_nil) hsources
  unfold enter
  dsimp only
  split
  · exact hall
  · exact hall

/-- A diagnostic that is moved to the source of a copy is still one that can be resolved. -/
theorem resolved_mapBack? {s : Staging} {directory : Location} {d moved : Diagnostic}
    (h : s.NullFreeSources) (hd : d.Resolved) (hmoved : s.mapBack? directory d = .ok (some moved)) :
    moved.Resolved := by
  unfold mapBack? at hmoved
  split at hmoved
  -- a diagnostic without a file stays as it is
  · obtain rfl := Option.some.inj (Except.ok.inj hmoved)
    exact hd
  · obtain ⟨place, -, hmoved⟩ := exists_of_bind_eq_ok hmoved
    split at hmoved
    -- a file that is a copy becomes its source, which is a place without the null character
    · rename_i source hsource
      obtain rfl := Option.some.inj (Except.ok.inj hmoved)
      intro name hname
      have hmem : (place, source) ∈ s.copies := by
        obtain ⟨before, after, hcopies, -⟩ := List.lookup_eq_some_iff.mp hsource
        rw [hcopies]
        exact List.mem_append_right _ List.mem_cons_self
      exact ⟨source, h _ hmem, (Option.some.inj hname).symm⟩
    · split at hmoved
      · exact absurd (Except.ok.inj hmoved) (by simp)
      · obtain rfl := Option.some.inj (Except.ok.inj hmoved)
        exact hd

theorem resolved_mapBack {s : Staging} {directory : Location} {ds moved : List Diagnostic}
    (h : s.NullFreeSources) (hds : ∀ d ∈ ds, d.Resolved)
    (hmoved : s.mapBack directory ds = .ok moved) : ∀ d ∈ moved, d.Resolved := by
  induction ds generalizing moved with
  | nil =>
    obtain rfl := Except.ok.inj hmoved
    exact fun d hd => absurd hd List.not_mem_nil
  | cons d ds ih =>
    rw [mapBack] at hmoved
    obtain ⟨first, hfirst, hmoved⟩ := exists_of_bind_eq_ok hmoved
    obtain ⟨rest, hrest, hmoved⟩ := exists_of_bind_eq_ok hmoved
    obtain rfl := Except.ok.inj hmoved
    intro e he
    rcases List.mem_append.mp he with he | he
    · obtain rfl := Option.mem_toList.mp he
      exact resolved_mapBack? h (hds d List.mem_cons_self) hfirst
    · exact ih (fun x hx => hds x (List.mem_cons_of_mem _ hx)) hrest e he

end Staging

theorem Workspace.nullFree_of_resolveAll {w : Workspace} {paths : List Path}
    {places : List Location} (h : w.resolveAll paths = .ok places) :
    ∀ place ∈ places, NullFree place.names := by
  induction paths generalizing places with
  | nil =>
    obtain rfl := Except.ok.inj h
    exact fun p hp => absurd hp List.not_mem_nil
  | cons path paths ih =>
    rw [resolveAll] at h
    obtain ⟨first, hfirst, h⟩ := exists_of_bind_eq_ok h
    obtain ⟨rest, hrest, h⟩ := exists_of_bind_eq_ok h
    obtain rfl := Except.ok.inj h
    exact List.forall_mem_cons.mpr
      ⟨Path.nullFree_of_resolve (exists_of_mapError_eq_ok hfirst), ih hrest⟩

namespace Compiler

theorem Called.resolved_diagnostics {called : Called} {directory : Location}
    {ds : List Diagnostic} (h : called.diagnostics directory = .ok ds) : ∀ d ∈ ds, d.Resolved := by
  obtain ⟨text, -, h⟩ := exists_of_bind_eq_ok h
  exact Listing.resolved_diagnosticsOf (exists_of_mapError_eq_ok h)

theorem resolved_callOn {c : Compiler} {w : Workspace} {directory : Location} {execute : Executor}
    {sources : List Location} {ds : List Diagnostic}
    (hsources : ∀ source ∈ sources, NullFree source.names)
    (h : (c.callOn (told w.directory) w.tree w.directory directory execute
      sources).collected.result = .ok ds) :
    ∀ d ∈ ds, d.Resolved := by
  -- the compiler tells of copies, and the sources that these lead back to are resolved places
  have hcopies : (Staging.enter w.tree sources).1.NullFreeSources :=
    Staging.nullFreeSources_enter hsources
  obtain ⟨s, failure, henter⟩ :
      ∃ s failure, Staging.enter w.tree sources = (s, failure) := ⟨_, _, rfl⟩
  rw [henter] at hcopies
  cases failure with
  | some f =>
    rw [result_callOn_of_failure henter] at h
    exact nomatch h
  | none =>
    cases hconfig : resolve? w c.config with
    | error f =>
      rw [result_callOn_of_config hconfig henter] at h
      exact nomatch h
    | ok config =>
      rw [result_callOn hconfig henter] at h
      obtain ⟨found, hfound, h⟩ := exists_of_bind_eq_ok h
      cases hback : s.mapBack w.directory found with
      | error f =>
        rw [hback] at h
        exact nomatch h
      | ok moved =>
        rw [hback] at h
        obtain rfl := Except.ok.inj h
        intro d hd
        exact Staging.resolved_mapBack hcopies (Called.resolved_diagnostics hfound) hback d
          (Diagnostic.mem_of_mem_tidy hd)

/-- The diagnostics that the compiler gives can be resolved, from any directory. -/
theorem collect_resolves {c : Compiler} {w : Workspace} {execute : Executor} {paths : List Path}
    {ds : List Diagnostic} (h : (c.collect w execute paths).collected.result = .ok ds)
    (directory : Location) : Diagnostic.AllResolve directory ds := by
  apply Diagnostic.allResolve_of_resolved
  rcases c.collectOn_cases (told w.directory) w.tree w.directory execute paths with
    ⟨result, heq, hnone⟩ | ⟨here, sources, hsources, heq⟩
  · have hresult := congrArg (·.collected.result) heq
    rw [hnone ds (hresult.symm.trans h)]
    exact fun d hd => absurd hd List.not_mem_nil
  · rw [Disk.resolveAll_tree] at hsources
    have hresult := congrArg (·.collected.result) heq
    exact resolved_callOn (w.nullFree_of_resolveAll hsources) (hresult.symm.trans h)

end Compiler

/-- Whatever the command line asks to collect from, the diagnostics of a check can be resolved. -/
theorem CommandLine.collector_resolves {w : Workspace} {execute : Executor} {s : Settings}
    {arguments : List Argument} {collect : List Path → Collected} {paths : List Path}
    {ds : List Diagnostic} (hcollect : collector w execute s arguments = .ok collect)
    (h : (collect paths).result = .ok ds) (directory : Location) :
    Diagnostic.AllResolve directory ds := by
  unfold collector at hcollect
  dsimp only at hcollect
  split at hcollect
  · exact absurd hcollect (by simp)
  · obtain rfl := Except.ok.inj hcollect
    exact Capture.collect_resolves h directory
  · obtain rfl := Except.ok.inj hcollect
    exact Capture.collect_resolves h directory
  · obtain ⟨compiler, -, hcollect⟩ := exists_of_bind_eq_ok hcollect
    obtain rfl := Except.ok.inj hcollect
    exact Compiler.collect_resolves h directory

end ExpectedDiagnostics
