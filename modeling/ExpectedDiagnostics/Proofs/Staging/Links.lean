import ExpectedDiagnostics.Proofs.LinkedTree
import ExpectedDiagnostics.Proofs.Staging.Entering

/-!
# Staging in a tree with links

Staging finds nothing by the name of a copy, and writes the copy by this name. If no link stands
there, the copy stands there afterwards, and removing what stands there removes the copy. If a link
does, the copy was written to where it leads, and it is the link that is removed: a dead link is the
one thing that staging does not leave as it was (`DeadLink`).

Main results:

* `Entered.add` — what staging one more file does, if it succeeds.
* `entered_enter`, `tree_cleaned`, `tree_enter_of_failure` — where staging stands after all files,
  and that removing the copies gives the first tree back.
-/

namespace ExpectedDiagnostics

namespace LinkedTree

variable {t : LinkedTree} {source : Location} {done sources : List Location}
  {s next : Staging LinkedTree} {text : List Char}

/-! ## Copies and their texts -/

/-- Tells whether a file gets a copy: it can be read, and retagging changes it. -/
def hasCopy (t : LinkedTree) (source : Location) : Bool :=
  match t.readText source with
  | .ok text => Marker.retag (.ofList text) != .ofList text
  | .error _ => false

/-- The copy of a file: it stands where the path of the copy leads, and has the retagged text of the
file. -/
structure IsCopy (t : LinkedTree) (source : Location) (copy : Location × List UInt8) : Prop where
  place : t.locate false (Staging.copyPlace source) = .ok copy.1
  content : ∃ text, t.readText source = .ok text ∧
    copy.2 = Utf8.encode (Marker.retag (.ofList text)).toList

/-- The copies of files, one for each file that gets one. -/
def AreCopies (t : LinkedTree) (sources : List Location)
    (copies : List (Location × List UInt8)) : Prop :=
  List.Forall₂ t.IsCopy (sources.filter t.hasCopy) copies

/-- The path of a place leads to a link that leads to where nothing is. -/
def DeadLink (t : LinkedTree) (place : Location) : Prop :=
  ∃ end? found, t.locate false place = .ok end? ∧ (t.link? end?).isSome ∧
    t.locate true place = .ok found ∧ t.entry? found = none

/-- No copy of files would be written through a dead link. -/
def CopiesAlive (t : LinkedTree) (sources : List Location) : Prop :=
  ∀ source ∈ sources, t.hasCopy source = true → ¬ t.DeadLink (Staging.copyPlace source)

theorem hasCopy_eq (h : t.readText source = .ok text) :
    t.hasCopy source = (Marker.retag (.ofList text) != .ofList text) := by
  unfold hasCopy
  rw [h]

/-- The octets of a copy are a text that has been retagged. -/
theorem IsCopy.exists_text {copy : Location × List UInt8} (h : t.IsCopy source copy) :
    ∃ copied : String, Workspace.textOf copy.2 = .ok copied.toList ∧
      Marker.retag copied = copied := by
  obtain ⟨text, hread, hcontent⟩ := h.content
  obtain ⟨-, _, _, -, -, htext⟩ := readText_eq_ok_iff.mp hread
  have hreturn : '\r' ∉ (Marker.retag (.ofList text)).toList := by
    intro hmem
    have hbefore := (Marker.retagged_retag (.ofList text)).mem hmem (by decide)
    rw [String.toList_ofList] at hbefore
    exact Workspace.return_not_mem_of_textOf htext hbefore
  exact ⟨_, hcontent ▸ Workspace.textOf_encode hreturn, Marker.retag_retag _⟩

theorem AreCopies.exists_source {copies : List (Location × List UInt8)}
    (h : t.AreCopies sources copies) {copy : Location × List UInt8} (hcopy : copy ∈ copies) :
    ∃ source, t.IsCopy source copy := by
  obtain ⟨i, hi, rfl⟩ := List.mem_iff_getElem.mp hcopy
  exact ⟨_, List.Forall₂.get h (h.length_eq ▸ hi) hi⟩

/-! ## Stages -/

/-- Where staging stands after some files: their copies are all that has come to the tree, and they
are where the paths lead by which they will be removed. -/
structure Entered (t : LinkedTree) (done : List Location) (s : Staging LinkedTree)
    (added : List (Location × List UInt8)) : Prop where
  copied : t.AreCopies done added
  adds : t.Adds s.tree added
  paths : List.Forall₂ (fun copy file => t.locate false copy.1 = .ok file.1) s.copies added

theorem entered_start (t : LinkedTree) : t.Entered [] (Staging.start t) [] where
  copied := .nil
  adds := .refl t
  paths := .nil

namespace Entered

variable {added : List (Location × List UInt8)}

/-- A file that can be read at some stage has the text that it had at first, or it is a copy and its
text has been retagged. Either way, retagging changes it now exactly if it was to have a copy at
first. -/
theorem hasCopy_eq (h : t.Entered done s added) (hread : s.tree.readText source = .ok text) :
    t.hasCopy source = (Marker.retag (.ofList text) != .ofList text) ∧
      (t.hasCopy source = true → t.readText source = .ok text) := by
  obtain ⟨hnull, found, content, hlocate, hentry, htext⟩ := readText_eq_ok_iff.mp hread
  rw [h.adds.locate_iff] at hlocate
  rcases h.adds.tree.entry?_cases hentry with ⟨copied, hmem, hfile⟩ | hold
  -- the file is a copy: nothing was there at first, and its text has been retagged
  · obtain ⟨p, hp⟩ := h.copied.exists_source hmem
    obtain ⟨retagged, hretagged, hsame⟩ := hp.exists_text
    obtain rfl := FileTree.Entry.file.inj hfile
    obtain rfl := Except.ok.inj (htext.symm.trans hretagged)
    have hnone : t.hasCopy source = false := by
      unfold hasCopy
      split
      · rename_i first hfirst
        obtain ⟨-, q, there, hq, hthere, -⟩ := readText_eq_ok_iff.mp hfirst
        obtain rfl := Except.ok.inj (hq.symm.trans hlocate)
        exact nomatch hthere.symm.trans (h.adds.tree.fresh _ hmem)
      · rfl
    rw [String.ofList_toList, hsame, bne_self_eq_false, hnone]
    exact ⟨rfl, fun hcopy => absurd hcopy Bool.false_ne_true⟩
  -- the file was there at first, with the same content
  · have hfirst : t.readText source = .ok text :=
      readText_eq_ok_iff.mpr ⟨hnull, found, content, hlocate, hold, htext⟩
    exact ⟨LinkedTree.hasCopy_eq hfirst, fun _ => hfirst⟩

/-- A copy is written to where its path leads, unless this is a dead link. -/
theorem locate_copyPlace (h : t.Entered done s added)
    (halive : ¬ t.DeadLink (Staging.copyPlace source)) {found : Location}
    (hlocate : s.tree.locate true (Staging.copyPlace source) = .ok found)
    (hnothing : s.tree.entry? found = none) :
    t.locate false (Staging.copyPlace source) = .ok found ∧ t.link? found = none := by
  rw [h.adds.locate_iff] at hlocate
  obtain ⟨last, hlast, hend⟩ := exists_locate_of_followsEnd hlocate
  have hfirst : t.entry? found = none := by
    cases hentry : t.entry? found with
    | none => rfl
    | some entry =>
      exact nomatch (h.adds.tree.toExtends _ _ hentry).symm.trans hnothing
  have hnone : t.link? last = none := by
    by_contra hlink
    exact halive ⟨last, found, hlast, Option.isSome_iff_ne_none.mpr hlink, hlocate, hfirst⟩
  obtain rfl := hend hnone
  exact ⟨hlast, hnone⟩

/-- **One more file**, if it can be staged: it is given as it is, or as its copy, which is written
where nothing is. -/
theorem add (h : t.Entered done s added)
    (halive : t.hasCopy source = true → ¬ t.DeadLink (Staging.copyPlace source))
    (hadd : s.add source = .ok next) : ∃ more, t.Entered (done ++ [source]) next more := by
  obtain ⟨text, hread, hcases⟩ := Staging.add_eq_ok hadd
  obtain ⟨hcopy, hsame⟩ := h.hasCopy_eq hread
  rcases hcases with ⟨hplain, rfl⟩ | ⟨hdiffers, hfind, tree, log, hwrite, rfl⟩
  -- the file is given as it is
  · rw [hplain, bne_self_eq_false] at hcopy
    refine ⟨added, ?_, h.adds, h.paths⟩
    unfold AreCopies
    rw [List.filter_append, List.filter_cons_of_neg (by rw [hcopy]; decide), List.filter_nil,
      List.append_nil]
    exact h.copied
  -- its copy is given, which is a file more
  · rw [bne_iff_ne.mpr hdiffers] at hcopy
    obtain ⟨found, hlocate, hnothing, rfl⟩ := write_eq_ok hfind hwrite
    obtain ⟨hpath, hlink⟩ := h.locate_copyPlace (halive hcopy) hlocate hnothing
    refine ⟨_, ?_, h.adds.put hnothing (h.adds.link?.trans hlink) _,
      List.rel_append h.paths (.cons hpath .nil)⟩
    unfold AreCopies
    rw [List.filter_append, List.filter_cons_of_pos hcopy, List.filter_nil]
    exact List.rel_append h.copied (.cons ⟨hpath, text, hsame hcopy, rfl⟩ .nil)

end Entered

/-! ## All files -/

/-- **Removing the copies gives the first tree back.** -/
theorem tree_cleaned {added : List (Location × List UInt8)} (h : t.Entered done s added) :
    s.cleaned.tree = t := by
  have hpaths : List.Forall₂ (fun path file => t.locate false path = .ok file.1)
      (s.copies.map (·.1)) added := List.forall₂_map_left_iff.mpr h.paths
  rw [← h.adds.removed hpaths, List.foldl_map]
  rfl

theorem enter_induction (halive : t.CopiesAlive sources) :
    (∀ {s}, Staging.enter t sources = (s, none) → ∃ added, t.Entered sources s added) ∧
      ∀ {s f}, Staging.enter t sources = (s, some f) →
        ∃ done stopped, (∃ added, t.Entered done stopped added) ∧ s = stopped.cleaned :=
  Staging.enter_induction (P := fun done s => ∃ added, t.Entered done s added)
    ⟨[], t.entered_start⟩ fun hmem ⟨_, h⟩ hadd => h.add (halive _ hmem) hadd

/-- Where staging stands after all files, if it was not stopped. -/
theorem entered_enter (halive : t.CopiesAlive sources)
    (henter : Staging.enter t sources = (s, none)) : ∃ added, t.Entered sources s added :=
  (enter_induction halive).1 henter

/-- If staging is stopped, the tree is the first one again. -/
theorem tree_enter_of_failure {f : Failure} (halive : t.CopiesAlive sources)
    (henter : Staging.enter t sources = (s, some f)) : s.tree = t := by
  obtain ⟨done, stopped, ⟨added, h⟩, rfl⟩ := (enter_induction halive).2 henter
  exact tree_cleaned h

end LinkedTree

end ExpectedDiagnostics
