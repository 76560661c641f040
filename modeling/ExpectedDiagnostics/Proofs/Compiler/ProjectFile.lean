import ExpectedDiagnostics.Compiler
import ExpectedDiagnostics.Proofs.Staging.MapBack
import Mathlib.Data.List.Nodup
import Mathlib.Data.List.Perm.Subperm

/-!
# The place of the project file

A project file goes where nothing is. There are more names for it than the tree has places, so one
of them is free, and it is the first one that is taken. No copy has such a name: staging the files
does not change where the project file goes.

Main results:

* `projectPlace_spec` — the place of a project file is the first candidate at which nothing is.
* `projectPlace_staged` — the project file goes to the same place after the files are staged.
-/

namespace ExpectedDiagnostics

namespace Compiler

variable {directory : Location}

/-! ## Candidates -/

/-- The places that a project file can go to in a directory. -/
def candidate (directory : Location) (n : Nat) : Location :=
  directory.step (projectName n)

theorem toList_projectName (n : Nat) :
    (projectName n).toList =
      projectStem.toList ++ List.replicate (8 + n) '0' ++ '.' :: ['j', 's', 'o', 'n'] := by
  unfold projectName
  rw [String.toList_append, String.toList_append, String.toList_ofList]
  rfl

theorem length_projectName (n : Nat) : (projectName n).toList.length = n + 30 := by
  have hstem : projectStem.toList.length = 17 := by decide
  rw [toList_projectName, List.length_append, List.length_append, List.length_replicate, hstem]
  simp only [List.length_cons, List.length_nil]
  omega

theorem candidate_eq (directory : Location) (n : Nat) :
    candidate directory n = ⟨directory.names ++ [projectName n]⟩ := by
  have hup : ¬ (projectName n == "..") = true := by
    rw [beq_iff_eq]
    intro heq
    have hlength := length_projectName n
    have hup : "..".toList.length = 2 := by decide
    rw [heq, hup] at hlength
    omega
  unfold candidate Location.step
  rw [if_neg hup]

theorem candidate_injective {m n : Nat} (h : candidate directory m = candidate directory n) :
    m = n := by
  rw [candidate_eq, candidate_eq, Location.mk.injEq] at h
  have hname := (List.cons.inj (List.append_cancel_left h)).1
  have hm := length_projectName m
  rw [hname, length_projectName] at hm
  omega

/-! ## A free place -/

/-- Whatever is at a candidate is a file or a directory of the tree. -/
theorem mem_of_entry?_candidate {t : FileTree} {n : Nat}
    (h : t.entry? (candidate directory n) ≠ none) :
    candidate directory n ∈ t.files.map (·.1) ++ t.directories := by
  have hroot : (candidate directory n == Location.root) = false := by
    rw [beq_eq_false_iff_ne, candidate_eq]
    intro heq
    exact absurd (Location.mk.inj heq) (by simp)
  unfold FileTree.entry? at h
  rw [hroot, Bool.false_or] at h
  split at h
  · rename_i content hlookup
    refine List.mem_append_left _ ?_
    by_contra hmem
    have hnone : t.files.lookup (candidate directory n) = none := by
      rw [List.lookup_eq_none_iff]
      intro file hfile
      rw [bne_iff_ne]
      rintro heq
      exact hmem (List.mem_map.mpr ⟨file, hfile, heq.symm⟩)
    rw [hnone] at hlookup
    exact absurd hlookup (by simp)
  · split at h
    · rename_i hdirectory
      exact List.mem_append_right _ (List.contains_iff_mem.mp hdirectory)
    · exact absurd rfl h

/-- Not all candidates that are looked at are taken, because they are more than the tree has
places. -/
theorem exists_free (t : FileTree) (directory : Location) :
    ∃ n ∈ List.range (t.files.length + t.directories.length + 1),
      t.entry? (candidate directory n) = none := by
  by_contra hall
  push Not at hall
  have hnodup : ((List.range (t.files.length + t.directories.length + 1)).map
      (candidate directory)).Nodup :=
    List.Nodup.map (fun _ _ => candidate_injective) List.nodup_range
  have hsubset : (List.range (t.files.length + t.directories.length + 1)).map
      (candidate directory) ⊆ t.files.map (·.1) ++ t.directories := by
    intro place hplace
    obtain ⟨n, hn, rfl⟩ := List.mem_map.mp hplace
    exact mem_of_entry?_candidate (hall n hn)
  have hlength := (List.subperm_of_subset hnodup hsubset).length_le
  rw [List.length_map, List.length_range, List.length_append, List.length_map] at hlength
  omega

/-- **The place of a project file** is the first candidate at which nothing is. -/
theorem projectPlace_spec (t : FileTree) (directory : Location) :
    ∃ n, projectPlace t directory = candidate directory n ∧
      t.entry? (candidate directory n) = none ∧
      ∀ m < n, t.entry? (candidate directory m) ≠ none := by
  obtain ⟨free, hfree, hnothing⟩ := exists_free t directory
  cases hfind : (List.range (t.files.length + t.directories.length + 1)).find?
      (fun n => (t.entry? (candidate directory n)).isNone) with
  | none =>
    have htaken := List.find?_eq_none.mp hfind free hfree
    rw [hnothing] at htaken
    exact absurd rfl htaken
  | some n =>
    obtain ⟨hn, -, hbefore⟩ := List.find?_range_eq_some.mp hfind
    refine ⟨n, ?_, Option.isNone_iff_eq_none.mp hn, fun m hm hnone => ?_⟩
    · have hmap : ((List.range (t.files.length + t.directories.length + 1)).map
          (candidate directory)).find? (fun place => (t.entry? place).isNone) =
            some (candidate directory n) := by
        rw [List.find?_map]
        exact congrArg (Option.map _) hfind
      unfold projectPlace
      dsimp only
      exact congrArg (Option.getD · _) hmap
    · have htaken := hbefore m hm
      rw [hnone] at htaken
      exact absurd htaken (by decide)

/-- Trees in which the same candidates are free have the same place for a project file. -/
theorem projectPlace_congr {t other : FileTree} (h : ∀ n,
    other.entry? (candidate directory n) = t.entry? (candidate directory n)) :
    projectPlace other directory = projectPlace t directory := by
  obtain ⟨m, hm, hfree, hbefore⟩ := projectPlace_spec t directory
  obtain ⟨n, hn, hfree', hbefore'⟩ := projectPlace_spec other directory
  rw [h] at hfree'
  rcases Nat.lt_trichotomy m n with hlt | rfl | hgt
  · refine absurd ?_ (hbefore' m hlt)
    rw [h, hfree]
  · rw [hn, hm]
  · exact absurd hfree' (hbefore n hgt)

/-! ## Copies are no candidates -/

/-- No copy has the name of a project file: its last dot is followed by the suffix of its source,
and preceded by the piece that marks copies, or followed by this piece. -/
theorem copyName_ne_projectName (name : String) (n : Nat) :
    Staging.copyName name ≠ projectName n := by
  intro heq
  have htext := congrArg String.toList heq
  have hcut := Path.cut_name name
  have hjson : '.' ∉ ['j', 's', 'o', 'n'] := by decide
  rw [Staging.toList_copyName, toList_projectName] at htext
  revert hcut htext
  generalize (Path.stemOf name).toList = stem
  generalize (Path.suffixOf name).toList = suffix
  intro htext hcut
  cases hcut with
  | whole _ =>
    rw [List.append_nil] at htext
    obtain ⟨-, hend⟩ := Path.eq_of_append_dot_eq htext (by decide) hjson
    exact absurd hend (by decide)
  | @dot stem ext _ hext _ _ =>
    rw [← List.cons_append, ← List.append_assoc] at htext
    obtain ⟨hfront, -⟩ := Path.eq_of_append_dot_eq htext hext hjson
    -- the piece ends in a letter, and what is before the last dot of a project file in a zero
    have hletter : '.' :: Staging.stem.toList = '.' :: "ts-expect-erro".toList ++ ['r'] := by decide
    have hzero : List.replicate (8 + n) '0' = List.replicate (7 + n) '0' ++ ['0'] := by
      rw [← List.replicate_succ', Nat.add_right_comm]
    have hlast := congrArg List.getLast? hfront
    rw [hletter, hzero, ← List.append_assoc, ← List.append_assoc, List.getLast?_concat,
      List.getLast?_concat] at hlast
    exact absurd (Option.some.inj hlast) (by decide)

/-- **The project file goes to the same place** after the files are staged. -/
theorem projectPlace_staged {w : Workspace} {sources : List Location} {s : Staging}
    (h : Staging.Staged w sources s) (hroot : w.tree.entry? .root = some .directory)
    (hall : ∀ p ∈ sources, Staging.Stageable w p) (directory : Location) :
    projectPlace s.tree directory = projectPlace w.tree directory := by
  refine projectPlace_congr fun n => h.kept _ fun source hsource _ heq => ?_
  have hstageable := hall source hsource
  obtain ⟨dirs, name, hname, -, hisName⟩ :=
    Staging.exists_snoc hstageable.canonical (hstageable.ne_root hroot)
  rw [hname, Staging.copyPlace_snoc _ hisName, candidate_eq, Location.mk.injEq] at heq
  obtain ⟨-, hlast⟩ := List.append_inj' heq rfl
  exact copyName_ne_projectName name n (List.cons.inj hlast).1.symm

end Compiler

end ExpectedDiagnostics
