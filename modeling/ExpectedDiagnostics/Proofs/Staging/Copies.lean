import ExpectedDiagnostics.Proofs.FileTree
import ExpectedDiagnostics.Proofs.Staging.Names
import ExpectedDiagnostics.Proofs.Staging.Steps

/-!
# Staging files

Staging reads the files one by one, while the copies of the ones before are in the tree already.
They change nothing that the next ones read: a copy is only made where nothing is, and no two files
have the same copy. So files that can be staged each for itself are staged together, and what the
compiler is given is known from the tree that staging began with (`Staged`).

Main results:

* `Staged.exists_add` — one more file is staged, whatever copies were made before.
* `exists_enter` — files that can be staged each for itself are staged together.
-/

namespace ExpectedDiagnostics

namespace Staging

variable {w : Workspace} {source : Location}

/-! ## One file -/

/-- Tells whether a file gets a copy: it can be read, and retagging changes it. -/
def hasCopy (w : Workspace) (source : Location) : Bool :=
  match w.readText source.toPath with
  | .ok text => Marker.retag (.ofList text) != .ofList text
  | .error _ => false

/-- The place that the compiler is given for a file. -/
def stagedPlace (w : Workspace) (source : Location) : Location :=
  if hasCopy w source then copyPlace source else source

/-- A file that can be staged: it can be read as text, and if it gets a copy, nothing is at the
copy's place, and a file can be there as far as lengths go. -/
structure Stageable (w : Workspace) (source : Location) : Prop where
  canonical : source.IsCanonical
  readable : ∃ text, w.readText source.toPath = .ok text
  free : hasCopy w source = true → w.tree.entry? (copyPlace source) = none
  fits : hasCopy w source = true → FileTree.Fits (copyPlace source)

theorem hasCopy_eq {text : List Char} (h : w.readText source.toPath = .ok text) :
    hasCopy w source = (Marker.retag (.ofList text) != .ofList text) := by
  unfold hasCopy
  rw [h]

namespace Stageable

/-- The path of a file that can be staged leads to the file. -/
theorem exists_content (h : Stageable w source) :
    w.tree.locate .root source.toPath = .ok source ∧
      ∃ content, w.tree.entry? source = some (.file content) := by
  obtain ⟨text, hread⟩ := h.readable
  obtain ⟨place, content, hlocate, hentry⟩ := Workspace.exists_file_of_readText hread
  obtain rfl := FileTree.locate_toPath h.canonical hlocate
  rw [FileTree.locate_of_isAbsolute (FileTree.isAbsolute_toPath _) _ _ .root] at hlocate
  exact ⟨hlocate, content, hentry⟩

theorem ne_root (h : Stageable w source) (hroot : w.tree.entry? .root = some .directory) :
    source ≠ .root := by
  rintro rfl
  obtain ⟨-, content, hentry⟩ := h.exists_content
  rw [hroot] at hentry
  exact absurd hentry (by simp)

/-- The path of a copy leads to the copy's place. -/
theorem locate_copyPlace (h : Stageable w source)
    (hroot : w.tree.entry? .root = some .directory) (hcopy : hasCopy w source = true) :
    w.tree.locate .root (copyPlace source).toPath = .ok (copyPlace source) := by
  have hcanonical := isCanonical_copyPlace h.canonical (h.ne_root hroot)
  have hfits := h.fits hcopy
  obtain ⟨hlocate, -⟩ := h.exists_content
  obtain ⟨dirs, name, hsource, -, hname⟩ := exists_snoc h.canonical (h.ne_root hroot)
  rw [hsource] at hlocate
  rw [hsource, copyPlace_snoc _ hname] at hfits hcanonical ⊢
  obtain ⟨sibling, hsibling⟩ := FileTree.exists_locate_sibling hlocate hfits
  rw [hsibling, FileTree.locate_toPath hcanonical hsibling]

end Stageable

/-! ## All files -/

/-- Where staging stands after some files: what the compiler is given for them, whose copies were
made, and that the tree is the one it began with apart from them. -/
structure Staged (w : Workspace) (done : List Location) (s : Staging) : Prop where
  places : s.places = done.map (stagedPlace w)
  copies : s.copies = (done.filter (hasCopy w)).map fun source => (copyPlace source, source)
  grown : w.tree.Extends s.tree
  kept : ∀ q, (∀ source ∈ done, hasCopy w source = true → q ≠ copyPlace source) →
    s.tree.entry? q = w.tree.entry? q

theorem staged_start (w : Workspace) : Staged w [] (start w.tree) where
  places := rfl
  copies := rfl
  grown := .refl _
  kept _ _ := rfl

namespace Staged

variable {done : List Location} {s : Staging}

/-- A file that needs no copy is given as it is. -/
theorem snoc_plain (h : Staged w done s) (hcopy : hasCopy w source = false) :
    Staged w (done ++ [source]) { s with places := s.places ++ [source] } where
  places := by
    have hplace : stagedPlace w source = source := if_neg (by rw [hcopy]; decide)
    rw [List.map_append, h.places, List.map_singleton, hplace]
  copies := by
    rw [List.filter_append, List.filter_cons_of_neg (by rw [hcopy]; decide), List.filter_nil,
      List.append_nil]
    exact h.copies
  grown := h.grown
  kept q hq := h.kept q fun p hp => hq p (List.mem_append_left _ hp)

/-- A file that gets a copy is given as its copy, which is written where nothing is. -/
theorem snoc_copy (h : Staged w done s) (hcopy : hasCopy w source = true)
    (hnothing : s.tree.entry? (copyPlace source) = none) (content : List UInt8)
    (log : List LogRecord) :
    Staged w (done ++ [source])
      { places := s.places ++ [copyPlace source]
        copies := s.copies ++ [(copyPlace source, source)]
        tree := s.tree.write (copyPlace source) content
        log } where
  places := by
    have hplace : stagedPlace w source = copyPlace source := if_pos hcopy
    rw [List.map_append, ← h.places, List.map_singleton, hplace]
  copies := by
    rw [List.filter_append, List.filter_cons_of_pos hcopy, List.filter_nil, List.map_append,
      ← h.copies]
    rfl
  grown := h.grown.trans (FileTree.extends_write hnothing _)
  kept q hq := by
    have hne := hq source (List.mem_append_right _ List.mem_cons_self) hcopy
    rw [FileTree.entry?_write, if_neg hne]
    exact h.kept q fun p hp => hq p (List.mem_append_left _ hp)

/-- Nothing is at the place of a copy yet: the copies that are there already are those of other
files. -/
theorem entry?_copyPlace (h : Staged w done s) (hroot : w.tree.entry? .root = some .directory)
    (hdone : ∀ p ∈ done, Stageable w p) (hsource : Stageable w source) (hnew : source ∉ done)
    (hcopy : hasCopy w source = true) : s.tree.entry? (copyPlace source) = none := by
  rw [h.kept, hsource.free hcopy]
  intro p hp _ heq
  have hsame := copyPlace_injective hsource.canonical (hdone p hp).canonical
    (hsource.ne_root hroot) ((hdone p hp).ne_root hroot) heq
  exact hnew (hsame ▸ hp)

/-- One more file that can be staged is staged, whatever copies were made before. -/
theorem exists_add (h : Staged w done s) (hroot : w.tree.entry? .root = some .directory)
    (hdone : ∀ p ∈ done, Stageable w p) (hsource : Stageable w source) (hnew : source ∉ done) :
    ∃ next, s.add source = .ok next ∧ Staged w (done ++ [source]) next := by
  obtain ⟨text, hread⟩ := hsource.readable
  have hreads : (⟨s.tree, .root, .root, ""⟩ : Workspace).readText source.toPath = .ok text :=
    Workspace.readText_of_extends h.grown (FileTree.isAbsolute_toPath _) hread
  have hretag := hasCopy_eq hread
  cases hcopy : hasCopy w source with
  | false =>
    rw [hcopy, eq_comm, bne_eq_false_iff_eq] at hretag
    exact ⟨_, add_of_same hreads hretag, h.snoc_plain hcopy⟩
  | true =>
    rw [hcopy, eq_comm, bne_iff_ne] at hretag
    have hnothing := h.entry?_copyPlace hroot hdone hsource hnew hcopy
    have hfind : Disk.find? s.tree (copyPlace source) = .ok none := by
      show (⟨s.tree, .root, .root, ""⟩ : Workspace).find? (copyPlace source).toPath = .ok none
      unfold Workspace.find? FileTree.find?
      dsimp only
      rw [h.grown.locate (hsource.locate_copyPlace hroot hcopy)]
      dsimp only
      rw [hnothing, ite_self]
      rfl
    obtain ⟨log, hadd⟩ := add_of_differs hreads hretag hfind rfl
    exact ⟨_, hadd, h.snoc_copy hcopy hnothing _ log⟩

end Staged

/-- From any stage, files that can be staged are staged. -/
theorem Staged.exists_addAll {done sources : List Location} {s : Staging} (h : Staged w done s)
    (hroot : w.tree.entry? .root = some .directory)
    (hall : ∀ p ∈ done ++ sources, Stageable w p) (hnodup : (done ++ sources).Nodup) :
    ∃ next, s.addAll sources = (next, none) ∧ Staged w (done ++ sources) next := by
  induction sources generalizing done s with
  | nil => exact ⟨s, rfl, by rwa [List.append_nil]⟩
  | cons source sources ih =>
    have hsource := hall source (List.mem_append_right _ List.mem_cons_self)
    have hnew : source ∉ done := by
      intro hmem
      exact (List.nodup_append.mp hnodup).2.2 source hmem source List.mem_cons_self rfl
    obtain ⟨next, hadd, hnext⟩ := h.exists_add hroot
      (fun p hp => hall p (List.mem_append_left _ hp)) hsource hnew
    have hsplit : done ++ source :: sources = done ++ [source] ++ sources := by
      rw [List.append_assoc, List.singleton_append]
    rw [hsplit] at hall hnodup ⊢
    obtain ⟨last, haddAll, hlast⟩ := ih hnext hall hnodup
    refine ⟨last, ?_, hlast⟩
    rw [addAll, hadd]
    exact haddAll

/-- **Files that can be staged each for itself are staged together.** -/
theorem exists_enter {sources : List Location} (hroot : w.tree.entry? .root = some .directory)
    (hall : ∀ p ∈ sources, Stageable w p) (hnodup : sources.Nodup) :
    ∃ s, enter w.tree sources = (s, none) ∧ Staged w sources s := by
  obtain ⟨s, haddAll, hs⟩ := (staged_start w).exists_addAll hroot hall hnodup
  refine ⟨s, ?_, hs⟩
  unfold enter
  rw [haddAll]
  rfl

end Staging

end ExpectedDiagnostics
