import ExpectedDiagnostics.Proofs.Compiler.Collect
import ExpectedDiagnostics.Proofs.Null
import ExpectedDiagnostics.Proofs.Source
import ExpectedDiagnostics.Proofs.Staging.Entering
import Mathlib.Data.List.Forall2

/-!
# What the compiler is given for the inputs

When all inputs can be read and are staged, the compiler is given one file for each of them, in
order: the file that the input leads to, if retagging leaves it as it is, and its copy otherwise.
Either way it reads the text that a source file is loaded with. What is told of a copy is moved to
its source, what is told of the source is dropped, and nothing else is touched.

Main results:

* `Entered.readText` — the compiler reads the text of the source file.
* `mapBack_movedBack` — what becomes of diagnostics, if their files can be resolved.
* `places_standFor` — all of this, for inputs that can be read and are staged.
* `mapBack_ne_ok`, `mapBack_sampleNull` — a file that cannot be resolved, because it has a null
  character, keeps all diagnostics from being moved back.
-/

namespace ExpectedDiagnostics

namespace FileTree

variable {t other : FileTree} {added : List (Location × List UInt8)}

/-- An added file is at its place. -/
theorem Adds.entry?_of_mem (h : t.Adds other added) {place : Location} {content : List UInt8}
    (hmem : (place, content) ∈ added) : other.entry? place = some (.file content) := by
  rw [h.entry?]
  cases hlookup : added.lookup place with
  | none => exact absurd (List.lookup_eq_none_iff.mp hlookup _ hmem) (by simp)
  | some found =>
    obtain ⟨before, after, hsplit, -⟩ := List.lookup_eq_some_iff.mp hlookup
    have hfound : (place, found) ∈ added := by
      rw [hsplit]
      exact List.mem_append_right _ List.mem_cons_self
    have hsame := List.inj_on_of_nodup_map h.distinct hfound hmem rfl
    exact congrArg (fun content => some (Entry.file content)) (Prod.mk.inj hsame).2

end FileTree

namespace Staging

variable {w : Workspace} {source : Location} {done sources : List Location} {s : Staging}

/-! ## Texts -/

/-- **The compiler reads the text of the source file**, at the file itself or at its copy. -/
theorem Entered.readText (h : Entered w done s) (hmem : source ∈ done)
    (hcanonical : (stagedPlace w source).IsCanonical) {text : List Char}
    (hread : w.readText source.toPath = .ok text) :
    s.reading.readText (stagedPlace w source).toPath =
      .ok (Marker.retag (.ofList text)).toList := by
  have hsame := Staging.hasCopy_eq hread
  unfold stagedPlace at hcanonical ⊢
  split
  -- the copy has been written with the retagged text, and nothing written later is in its place
  · rename_i hcopy
    rw [if_pos hcopy] at hcanonical
    have hadded : copyFile w source ∈ copyFiles w done :=
      List.mem_map_of_mem (List.mem_filter.mpr ⟨hmem, hcopy⟩)
    refine Workspace.readText_eq_ok_iff.mpr ⟨Path.hasNull_toPath hcanonical, copyPlace source, _,
      h.grown.locate ((h.reached source hmem).copied hcopy), h.adds.entry?_of_mem hadded, ?_⟩
    rw [Workspace.textOf_encode (return_not_mem_copyText w source), copyText_eq hread]
  -- the file itself is where it was, and its text is one that retagging does not change
  · rename_i hcopy
    rw [Bool.not_eq_true] at hcopy
    rw [hcopy, eq_comm, bne_eq_false_iff_eq] at hsame
    have hgrown : w.tree.Extends s.reading.tree := h.grown
    rw [hsame, String.toList_ofList]
    exact Workspace.readText_of_extends hgrown (FileTree.isAbsolute_toPath _) hread

/-- What an input leads to is read from its place as well. -/
theorem readText_of_input {input : String}
    (hresolve : w.resolve (.ofString input) = .ok source) (hcanonical : source.IsCanonical)
    (hlocate : w.tree.locate .root source.toPath = .ok source) {text : List Char}
    (hread : w.readText (.ofString input) = .ok text) : w.readText source.toPath = .ok text := by
  obtain ⟨-, place, content, hfound, hentry, htext⟩ := Workspace.readText_eq_ok_iff.mp hread
  obtain rfl : place = source := by
    rw [FileTree.eq_place_of_locate hfound,
      Path.eq_place_of_resolve (exists_of_mapError_eq_ok hresolve)]
  refine Workspace.readText_eq_ok_iff.mpr
    ⟨Path.hasNull_toPath hcanonical, place, content, ?_, hentry, htext⟩
  rw [FileTree.locate_of_isAbsolute (FileTree.isAbsolute_toPath _) _ _ .root]
  exact hlocate

/-- The path of a copy is that of its place. -/
theorem copyPath_toPath (hcanonical : source.IsCanonical) (hroot : source ≠ .root) :
    copyPath source.toPath = .ok (copyPlace source).toPath := by
  obtain ⟨dirs, name, rfl, -, hname⟩ := exists_snoc hcanonical hroot
  have hlast : (Location.toPath ⟨dirs ++ [name]⟩).name = name := by
    show (dirs ++ [name]).getLast?.getD "" = name
    rw [List.getLast?_concat, Option.getD_some]
  rw [copyPlace_snoc dirs hname]
  unfold copyPath Path.withName
  rw [hlast, if_neg (by rw [String.isEmpty_iff]; exact hname.nonempty)]
  show Except.ok (Path.mk .root ((dirs ++ [name]).dropLast ++ [copyName name])) = _
  rw [List.dropLast_concat]
  rfl

/-- What the compiler is given for an input: the file that the input leads to, if retagging leaves
its text as it is, or a copy of it, and either way a file with the text that it is loaded with. -/
structure StandsFor (w : Workspace) (s : Staging) (place : Location) (input : String) : Prop where
  file : ∃ source text, w.resolve (.ofString input) = .ok source ∧
    w.readText (.ofString input) = .ok text ∧
      if Marker.retag (.ofList text) = .ofList text then place = source
      else copyPath source.toPath = .ok place.toPath ∧ (place, source) ∈ s.copies
  text : ∃ loaded, Source.load w (.ofString input) = .ok loaded ∧
    s.reading.readText place.toPath = .ok loaded.text.toList

/-- An input that is loaded, and the file that it leads to. -/
structure LoadedFrom (w : Workspace) (source : Location) (input : String) : Prop where
  resolved : w.resolve (.ofString input) = .ok source
  loaded : ∃ loaded, Source.load w (.ofString input) = .ok loaded

theorem forall₂_loadedFrom {inputs : List String}
    (hloaded : ∀ input ∈ inputs, ∃ loaded, Source.load w (.ofString input) = .ok loaded)
    (hsources : w.resolveAll (inputs.map Path.ofString) = .ok sources) :
    List.Forall₂ (LoadedFrom w) sources inputs := by
  induction inputs generalizing sources with
  | nil =>
    obtain rfl := Except.ok.inj hsources
    exact .nil
  | cons input inputs ih =>
    rw [List.map_cons, Workspace.resolveAll] at hsources
    obtain ⟨source, hsource, hsources⟩ := exists_of_bind_eq_ok hsources
    obtain ⟨rest, hrest, hsources⟩ := exists_of_bind_eq_ok hsources
    obtain rfl := Except.ok.inj hsources
    obtain ⟨hfirst, hloaded⟩ := List.forall_mem_cons.mp hloaded
    exact .cons ⟨hsource, hfirst⟩ (ih hloaded hrest)

theorem Entered.standsFor (h : Entered w done s) (hroot : w.tree.entry? .root = some .directory)
    (hmem : source ∈ done) (hcanonical : source.IsCanonical) {input : String}
    (hinput : LoadedFrom w source input) :
    (∃ content, w.tree.entry? source = some (.file content)) ∧
      StandsFor w s (stagedPlace w source) input := by
  obtain ⟨hresolve, loaded, hload⟩ := hinput
  obtain ⟨text, hread, rfl⟩ := Source.exists_readText_of_load hload
  have hhere := readText_of_input hresolve hcanonical (h.reached source hmem).itself hread
  obtain ⟨-, content, hentry, -⟩ := exists_content_of_readText hcanonical hhere
  have hsource : source ≠ .root := by
    rintro rfl
    exact nomatch hroot.symm.trans hentry
  have hplace : (stagedPlace w source).IsCanonical := by
    unfold stagedPlace
    split
    · exact isCanonical_copyPlace hcanonical hsource
    · exact hcanonical
  refine ⟨⟨content, hentry⟩, ⟨source, text, hresolve, hread, ?_⟩, _, hload, ?_⟩
  · have hsame := Staging.hasCopy_eq hhere
    unfold stagedPlace
    split
    · rename_i hretag
      rw [hretag, bne_self_eq_false] at hsame
      rw [if_neg (by rw [hsame]; decide)]
    · rename_i hretag
      rw [bne_iff_ne.mpr hretag] at hsame
      rw [if_pos hsame, h.copies]
      exact ⟨copyPath_toPath hcanonical hsource,
        List.mem_map_of_mem (List.mem_filter.mpr ⟨hmem, hsame⟩)⟩
  · exact h.readText hmem hplace hhere

/-- The copies are those of files that get one, no two are at one place, and none is where a file
is that was there before. -/
theorem Entered.copies_apart (h : Entered w done s)
    (hfiles : ∀ source ∈ done, ∃ content, w.tree.entry? source = some (.file content)) :
    (s.copies.map (·.1)).Nodup ∧ ∀ copy ∈ s.copies,
      copy.2 ∈ done ∧ hasCopy w copy.2 = true ∧ copy.1 ∉ done := by
  have hplaces := h.map_fst_copies
  refine ⟨hplaces ▸ h.adds.distinct, fun copy hcopy => ?_⟩
  have hfresh : w.tree.entry? copy.1 = none := by
    have hplace : copy.1 ∈ s.copies.map (·.1) := List.mem_map_of_mem hcopy
    rw [hplaces] at hplace
    obtain ⟨file, hfile, heq⟩ := List.mem_map.mp hplace
    rw [← heq]
    exact h.adds.fresh file hfile
  rw [h.copies] at hcopy
  obtain ⟨source, hsource, rfl⟩ := List.mem_map.mp hcopy
  obtain ⟨hmem, hhas⟩ := List.mem_filter.mp hsource
  refine ⟨hmem, hhas, fun hdone => ?_⟩
  obtain ⟨content, hentry⟩ := hfiles _ hdone
  exact nomatch hentry.symm.trans hfresh

/-! ## Diagnostics of copies and of their sources -/

/-- A diagnostic is of the file at a place, if its file is resolved to it. -/
def IsOf (here : Location) (d : Diagnostic) (place : Location) : Prop :=
  ∃ file, d.file = some file ∧ (Path.ofString file).resolve here = .ok place

/-- What becomes of diagnostics, in order: one of a copy is moved to the source of the copy, one of
a source that has a copy is dropped, and any other is left as it is. -/
inductive MovedBack (s : Staging) (here : Location) : List Diagnostic → List Diagnostic → Prop
  | nil : MovedBack s here [] []
  | moved {d ds back} (copy : Location × Location) (hcopy : copy ∈ s.copies)
      (hd : IsOf here d copy.1) (hrest : MovedBack s here ds back) :
      MovedBack s here (d :: ds) ({ d with file := some copy.2.toString } :: back)
  | dropped {d ds back} (copy : Location × Location) (hcopy : copy ∈ s.copies)
      (hd : IsOf here d copy.2) (hrest : MovedBack s here ds back) :
      MovedBack s here (d :: ds) back
  | left {d ds back} (hcopies : ∀ copy ∈ s.copies, ¬ IsOf here d copy.1)
      (hsources : ∀ copy ∈ s.copies, ¬ IsOf here d copy.2) (hrest : MovedBack s here ds back) :
      MovedBack s here (d :: ds) (d :: back)

variable {here : Location} {d : Diagnostic}

/-- A diagnostic whose file is resolved is of the file at this place only. -/
theorem isOf_iff {file : String} {place : Location} (hfile : d.file = some file)
    (hresolve : (Path.ofString file).resolve here = .ok place) (other : Location) :
    IsOf here d other ↔ other = place := by
  constructor
  · rintro ⟨found, hfound, hother⟩
    obtain rfl := Option.some.inj (hfile.symm.trans hfound)
    exact Except.ok.inj (hother.symm.trans hresolve)
  · rintro rfl
    exact ⟨file, hfile, hresolve⟩

/-- One more diagnostic, whatever becomes of the others. -/
theorem exists_mapBack? (s : Staging)
    (hd : ∀ file ∈ d.file, ∃ place, (Path.ofString file).resolve here = .ok place) :
    ∃ moved, s.mapBack? here d = .ok moved ∧ ∀ {ds back}, MovedBack s here ds back →
      MovedBack s here (d :: ds) (moved.toList ++ back) := by
  cases hfile : d.file with
  | none =>
    have hnone : ∀ place, ¬ IsOf here d place := by
      rintro place ⟨file, hsome, -⟩
      exact nomatch hfile.symm.trans hsome
    refine ⟨some d, by unfold mapBack?; rw [hfile], fun hrest => .left ?_ ?_ hrest⟩
    · exact fun copy _ => hnone copy.1
    · exact fun copy _ => hnone copy.2
  | some file =>
    obtain ⟨place, hresolve⟩ := hd file hfile
    have hplace := isOf_iff hfile hresolve
    cases hlookup : s.copies.lookup place with
    | some source =>
      obtain ⟨before, after, hsplit, -⟩ := List.lookup_eq_some_iff.mp hlookup
      have hcopy : (place, source) ∈ s.copies := by
        rw [hsplit]
        exact List.mem_append_right _ List.mem_cons_self
      exact ⟨_, s.mapBack?_of_copy hfile hresolve hlookup,
        .moved (place, source) hcopy ((hplace _).mpr rfl)⟩
    | none =>
      rw [s.mapBack?_of_no_copy hfile hresolve hlookup]
      by_cases hany : s.copies.any (·.2 == place) = true
      -- the compiler was given a copy of this file, and not the file
      · rw [if_pos hany]
        obtain ⟨copy, hcopy, hsource⟩ := List.any_eq_true.mp hany
        exact ⟨none, rfl, .dropped copy hcopy ((hplace _).mpr (eq_of_beq hsource))⟩
      · rw [if_neg hany]
        refine ⟨some d, rfl, .left (fun copy hcopy hof => ?_) (fun copy hcopy hof => ?_)⟩
        · have hno := List.lookup_eq_none_iff.mp hlookup copy hcopy
          rw [(hplace _).mp hof] at hno
          exact absurd hno (by simp)
        · exact hany (List.any_eq_true.mpr ⟨copy, hcopy, beq_iff_eq.mpr ((hplace _).mp hof)⟩)

/-- **Diagnostics are moved back**, if all their files can be resolved. -/
theorem mapBack_movedBack (s : Staging) {ds : List Diagnostic}
    (hds : Diagnostic.AllResolve here ds) :
    ∃ back, s.mapBack here ds = .ok back ∧ MovedBack s here ds back := by
  induction ds with
  | nil => exact ⟨[], rfl, .nil⟩
  | cons d ds ih =>
    obtain ⟨hd, hds⟩ := List.forall_mem_cons.mp hds
    obtain ⟨moved, hmoved, hstep⟩ := s.exists_mapBack? hd
    obtain ⟨back, hback, hrest⟩ := ih hds
    refine ⟨moved.toList ++ back, ?_, hstep hrest⟩
    rw [mapBack, hmoved, hback]
    rfl

/-- A file that cannot be resolved keeps all diagnostics from being moved back. -/
theorem mapBack_ne_ok (s : Staging) {ds : List Diagnostic} (hd : d ∈ ds) {file : String}
    (hfile : d.file = some file) {fault : Path.Fault}
    (hresolve : (Path.ofString file).resolve here = .error fault) (back : List Diagnostic) :
    s.mapBack here ds ≠ .ok back := by
  have hfirst : s.mapBack? here d = .error (.unresolved fault) := by
    simp only [mapBack?, hfile, FileTree.disk_resolve, hresolve]
    rfl
  induction ds generalizing back with
  | nil => exact absurd hd List.not_mem_nil
  | cons e ds ih =>
    intro h
    rw [mapBack] at h
    obtain ⟨moved, hmoved, h⟩ := exists_of_bind_eq_ok h
    obtain ⟨rest, hrest, -⟩ := exists_of_bind_eq_ok h
    rcases List.mem_cons.mp hd with rfl | hd
    · exact absurd (hfirst.symm.trans hmoved) (by simp)
    · exact ih hd rest hrest

/-- No diagnostic that was moved back is of a copy, if no source is one. -/
theorem MovedBack.not_isOf {ds back : List Diagnostic}
    (h : MovedBack s here ds back) (hcanonical : ∀ copy ∈ s.copies, copy.2.IsCanonical)
    (hapart : ∀ copy ∈ s.copies, copy.2 ∉ s.copies.map (·.1)) :
    ∀ d ∈ back, ∀ copy ∈ s.copies, ¬ IsOf here d copy.1 := by
  induction h with
  | nil => exact fun d hd => absurd hd List.not_mem_nil
  | @moved d _ _ copy hcopy _ _ ih =>
    -- it is of a source now, and no source is a copy
    refine List.forall_mem_cons.mpr ⟨?_, ih⟩
    rintro other hother ⟨file, hfile, hresolve⟩
    obtain rfl := Option.some.inj hfile
    rw [Path.resolve_toString_of_isCanonical (hcanonical copy hcopy)] at hresolve
    refine hapart copy hcopy ?_
    rw [Except.ok.inj hresolve]
    exact List.mem_map_of_mem hother
  | dropped _ _ _ _ ih => exact ih
  | left hcopies _ _ ih => exact List.forall_mem_cons.mpr ⟨hcopies, ih⟩

/-! ## All of this together -/

/-- **What the compiler is given for the inputs, and what becomes of what it says.** There is one
file for each input, in order, that has the text which the input is loaded with. Diagnostics are
moved back, unless the file of one has a null character, and none of a copy is left. -/
theorem places_standFor {inputs : List String} (hdirectory : w.directory.IsCanonical)
    (hroot : w.tree.entry? .root = some .directory)
    (hloaded : ∀ input ∈ inputs, ∃ loaded, Source.load w (.ofString input) = .ok loaded)
    (hsources : w.resolveAll (inputs.map Path.ofString) = .ok sources)
    (henter : enter w.tree sources = (s, none)) :
    List.Forall₂ (StandsFor w s) s.places inputs ∧
      ((s.copies.map (·.1)).Nodup ∧ ∀ copy ∈ s.copies,
        copy.2 ∈ sources ∧ hasCopy w copy.2 = true ∧ copy.1 ∉ sources) ∧
      ∀ ds : List Diagnostic, (∀ d ∈ ds, ∀ file ∈ d.file, '\x00' ∉ file.toList) →
        ∃ back, s.mapBack w.directory ds = .ok back ∧ MovedBack s w.directory ds back ∧
          ∀ d ∈ back, ∀ copy ∈ s.copies, ¬ IsOf w.directory d copy.1 := by
  have hcanonical := Compiler.isCanonical_of_resolveAll hdirectory hsources
  have h := entered_enter hroot hcanonical henter
  -- each source with its input, and that it is one of the sources
  have hinputs := (List.forall₂_and_left _ _).mpr
    ⟨fun _ hsource => hsource, forall₂_loadedFrom hloaded hsources⟩
  obtain ⟨hfiles, hstand⟩ := (List.forall₂_and_left _ _).mp <|
    hinputs.imp fun source _ ⟨hmem, hinput⟩ =>
      h.standsFor hroot hmem (hcanonical source hmem) hinput
  obtain ⟨hnodup, hcopies⟩ := h.copies_apart hfiles
  refine ⟨?_, ⟨hnodup, hcopies⟩, fun ds hds => ?_⟩
  · rw [h.places, List.forall₂_map_left_iff]
    exact hstand
  · obtain ⟨back, hback, hmoved⟩ := s.mapBack_movedBack fun d hd file hfile =>
      Path.exists_resolve_ofString hdirectory.nullFree (hds d hd file hfile)
    refine ⟨back, hback, hmoved, hmoved.not_isOf (fun copy hcopy => ?_) fun copy hcopy hmem => ?_⟩
    · exact hcanonical _ (hcopies copy hcopy).1
    · obtain ⟨other, hother, heq⟩ := List.mem_map.mp hmem
      exact (hcopies other hother).2.2 (heq ▸ (hcopies copy hcopy).1)

/-! ## A file with a marker and one without -/

theorem loaded_sampleInputs :
    ∀ input ∈ sampleInputs, ∃ loaded, Source.load sample (.ofString input) = .ok loaded := by
  simp only [sampleInputs, List.forall_mem_cons]
  exact ⟨⟨_, rfl⟩, ⟨_, rfl⟩, fun _ h => absurd h List.not_mem_nil⟩

/-- Diagnostics of the copy, of the file that it is a copy of, of another file, and of none. -/
def sampleTold : List Diagnostic :=
  [⟨some "/src/a.ts-expect-error.ts", 1, .text "text", 2322, 0, "error"⟩,
    ⟨some "src/a.ts", 1, .text "text", 2322, 0, "error"⟩,
    ⟨some "/lib/c.d.ts", 7, .text "text", 1, 0, "error"⟩,
    ⟨none, 0, .text "text", 2318, 0, "error"⟩]

theorem places_standFor_sample :
    ∃ s, enter sample.tree sampleSources = (s, none) ∧
      List.Forall₂ (StandsFor sample s) s.places sampleInputs ∧
      ((s.copies.map (·.1)).Nodup ∧ ∀ copy ∈ s.copies,
        copy.2 ∈ sampleSources ∧ hasCopy sample copy.2 = true ∧ copy.1 ∉ sampleSources) ∧
      ∃ back, s.mapBack .root sampleTold = .ok back ∧ MovedBack s .root sampleTold back ∧
        ∀ d ∈ back, ∀ copy ∈ s.copies, ¬ IsOf .root d copy.1 := by
  have henter : enter sample.tree sampleSources =
      ((enter sample.tree sampleSources).1, none) := rfl
  have hnull : ∀ d ∈ sampleTold, ∀ file ∈ d.file, '\x00' ∉ file.toList := by decide
  obtain ⟨hplaces, hcopies, hback⟩ :=
    places_standFor (by decide) rfl loaded_sampleInputs rfl henter
  exact ⟨_, henter, hplaces, hcopies, hback sampleTold hnull⟩

/-- A diagnostic whose file has a null character keeps all from being moved back, although the
inputs can be read and are staged. -/
theorem mapBack_sampleNull :
    (∀ input ∈ sampleInputs, ∃ loaded, Source.load sample (.ofString input) = .ok loaded) ∧
      sample.resolveAll (sampleInputs.map Path.ofString) = .ok sampleSources ∧
      ∃ s, enter sample.tree sampleSources = (s, none) ∧
        ∀ back, s.mapBack .root [⟨some "a\x00b", 1, .text "text", 2322, 0, "error"⟩] ≠ .ok back := by
  have hresolve : (Path.ofString "a\x00b").resolve .root = .error .nullCharacter := rfl
  refine ⟨loaded_sampleInputs, rfl, (enter sample.tree sampleSources).1, rfl, fun back => ?_⟩
  exact mapBack_ne_ok _ List.mem_cons_self rfl hresolve back

end Staging

end ExpectedDiagnostics
