import ExpectedDiagnostics.Proofs.FileTree.Additions
import ExpectedDiagnostics.Proofs.Index.Program
import ExpectedDiagnostics.Source

/-!
# Source files by any spelling

A file can be named in many ways. However it is named, the same text is read, and its name ends the
path: a path that ends in `..` leads to a directory, because all that it was led through are
directories. So the text and the dialect of a source file are a matter of the place that its path
leads to.

Main results:

* `Path.name_of_locate` — the last name of a path that leads to a file is the file's.
* `Source.load_same` — two spellings of a file are loaded with the same text and dialect.
-/

namespace ExpectedDiagnostics

namespace FileTree

variable {t : FileTree} {here place : Location}

/-- All places on the way to a place are directories; the place itself need not be one. -/
def Leads (t : FileTree) (place : Location) : Prop :=
  ∀ front, front <+: place.names → front ≠ place.names → t.entry? ⟨front⟩ = some .directory

theorem Leads.of_forall (h : ∀ front, front <+: here.names → t.entry? ⟨front⟩ = some .directory) :
    t.Leads here :=
  fun front hfront _ => h front hfront

/-- One name leads on from a directory. -/
theorem Leads.step (h : t.Leads here) (hentry : t.entry? here = some .directory) (name : String) :
    t.Leads (here.step name) := by
  have hall : ∀ front, front <+: here.names → t.entry? ⟨front⟩ = some .directory := by
    intro front hfront
    by_cases heq : front = here.names
    · rw [heq]
      exact hentry
    · exact h front hfront heq
  intro front hfront hne
  unfold Location.step at hfront hne
  dsimp only at hfront hne
  split at hfront
  · exact hall front (hfront.trans (List.dropLast_prefix _))
  · rename_i hup
    rw [if_neg hup] at hne
    rcases List.prefix_concat_iff.mp hfront with heq | hfront
    · exact absurd heq hne
    · exact hall front hfront

theorem Leads.follow (h : t.Leads here) {names : List String}
    (hfollow : t.follow here names = .ok place) : t.Leads place := by
  induction names generalizing here with
  | nil =>
    obtain rfl := Except.ok.inj hfollow
    exact h
  | cons name names ih =>
    rw [FileTree.follow] at hfollow
    split at hfollow
    · rename_i hentry
      split at hfollow
      · exact absurd hfollow (by simp)
      · exact ih (h.step hentry name) hfollow
    · exact absurd hfollow (by simp)
    · exact absurd hfollow (by simp)

/-- A path leads to the place that its names lead to, if it leads anywhere. -/
theorem eq_place_of_locate {p : Path} (h : t.locate here p = .ok place) : place = p.place here := by
  unfold locate at h
  split at h
  · exact absurd h (by simp)
  · exact follow_eq h

end FileTree

/-- The directory in which the program runs is there, and all on the way to it. -/
def Workspace.HasDirectory (w : Workspace) : Prop :=
  ∀ front, front <+: w.directory.names → w.tree.entry? ⟨front⟩ = some .directory

/-- **The last name of a path that leads to a file** is that of the file. -/
theorem Path.name_of_locate {w : Workspace} {p : Path} {place : Location} {content : List UInt8}
    (hdirectory : w.HasDirectory) (hlocate : w.tree.locate w.directory p = .ok place)
    (hentry : w.tree.entry? place = some (.file content)) :
    p.name = place.names.getLast?.getD "" := by
  -- where the path starts, there is a directory
  obtain ⟨start, hstart, hfollow⟩ : ∃ start : Location,
      (∀ front, front <+: start.names → w.tree.entry? ⟨front⟩ = some .directory) ∧
        w.tree.follow start p.parts = .ok place := by
    unfold FileTree.locate at hlocate
    split at hlocate
    · exact absurd hlocate (by simp)
    refine ⟨_, ?_, hlocate⟩
    split
    · intro front hfront
      rw [show front = [] from List.prefix_nil.mp hfront]
      exact hdirectory [] List.nil_prefix
    · exact hdirectory
  unfold Path.name
  rcases List.eq_nil_or_concat p.parts with hnil | ⟨init, last, hparts⟩
  · rw [hnil] at hfollow
    obtain rfl := Except.ok.inj hfollow
    exact nomatch (hstart _ (List.prefix_refl _)).symm.trans hentry
  rw [List.concat_eq_append] at hparts
  rw [hparts, FileTree.follow_snoc] at hfollow
  obtain ⟨mid, hmid, hlast⟩ := exists_of_bind_eq_ok hfollow
  have hleads := (FileTree.Leads.of_forall hstart).follow hmid
  rw [FileTree.follow] at hlast
  split at hlast
  · rename_i hdir
    split at hlast
    · exact absurd hlast (by simp)
    obtain rfl : mid.step last = place := Except.ok.inj hlast
    unfold Location.step at hentry ⊢
    split at hentry
    -- a step back leads to a directory, which is no file
    · have hback : w.tree.entry? ⟨mid.names.dropLast⟩ = some .directory := by
        by_cases hroot : mid.names.dropLast = mid.names
        · rw [hroot]
          exact hdir
        · exact hleads _ (List.dropLast_prefix _) hroot
      exact nomatch hback.symm.trans hentry
    · rename_i hup
      rw [if_neg hup, hparts, List.getLast?_concat, List.getLast?_concat]
  · exact absurd hlast (by simp)
  · exact absurd hlast (by simp)

namespace Source

variable {w : Workspace} {p q : Path} {s t : Source}

/-- A file that is loaded can be read, and its text is retagged. -/
theorem exists_readText_of_load (h : load w p = .ok s) :
    ∃ text, w.readText p = .ok text ∧ s = ofText p (.ofList text) := by
  unfold load at h
  split at h
  · exact nomatch h
  · exact nomatch h
  · rename_i text hread
    exact ⟨text, hread, (Except.ok.inj h).symm⟩

theorem path_of_load (h : load w p = .ok s) : s.path = p := by
  obtain ⟨text, -, rfl⟩ := exists_readText_of_load h
  rfl

/-- **Two spellings of a file** are loaded with the same text and dialect. -/
theorem load_same (hdirectory : w.HasDirectory) (hp : load w p = .ok s) (hq : load w q = .ok t)
    (hplace : p.place w.directory = q.place w.directory) :
    s.text = t.text ∧ s.dialect = t.dialect := by
  obtain ⟨text, hread, rfl⟩ := exists_readText_of_load hp
  obtain ⟨other, hother, rfl⟩ := exists_readText_of_load hq
  obtain ⟨-, place, content, hlocate, hentry, htext⟩ := Workspace.readText_eq_ok_iff.mp hread
  obtain ⟨-, place', content', hlocate', hentry', htext'⟩ :=
    Workspace.readText_eq_ok_iff.mp hother
  obtain rfl : place = place' := by
    rw [FileTree.eq_place_of_locate hlocate, FileTree.eq_place_of_locate hlocate', hplace]
  obtain rfl := FileTree.Entry.file.inj (Option.some.inj (hentry.symm.trans hentry'))
  obtain rfl := Except.ok.inj (htext.symm.trans htext')
  refine ⟨rfl, ?_⟩
  unfold dialect ofText Path.suffix
  rw [Path.name_of_locate hdirectory hlocate hentry, Path.name_of_locate hdirectory hlocate' hentry']

end Source

end ExpectedDiagnostics
