import ExpectedDiagnostics.Proofs.FileTree
import ExpectedDiagnostics.Proofs.StableSort
import Mathlib.Data.List.Lex
import Mathlib.Data.List.Nodup
import Mathlib.Data.String.Basic

/-!
# What lies below a directory

A place lies below a directory if its names are those of the directory and at least one more. These
names tell the places below a directory apart, so listing them in order gives each place once.

Main results:

* `mem_below_iff` — the files below a directory are those whose names go on from it.
* `pairwise_sortedBelow` — places are listed in the order of their names, each of them once.
-/

namespace ExpectedDiagnostics

theorem Location.namesBelow?_eq_some_iff {directory place : Location} {names : List String} :
    directory.namesBelow? place = some names ↔
      names ≠ [] ∧ place = ⟨directory.names ++ names⟩ := by
  obtain ⟨front⟩ := directory
  obtain ⟨all⟩ := place
  unfold namesBelow?
  simp only [Location.mk.injEq]
  constructor
  · intro h
    split at h
    · rename_i hbelow
      rw [Bool.and_eq_true, List.isPrefixOf_iff_prefix, decide_eq_true_eq] at hbelow
      obtain ⟨⟨rest, rfl⟩, hlength⟩ := hbelow
      rw [List.drop_left, Option.some.injEq] at h
      subst h
      refine ⟨?_, rfl⟩
      rintro rfl
      rw [List.append_nil] at hlength
      exact absurd hlength (Nat.lt_irrefl _)
    · exact nomatch h
  · rintro ⟨hne, rfl⟩
    have hlength := List.length_pos_of_ne_nil hne
    rw [if_pos, List.drop_left]
    rw [Bool.and_eq_true, List.isPrefixOf_iff_prefix, decide_eq_true_eq, List.length_append]
    exact ⟨List.prefix_append _ _, Nat.lt_add_of_pos_right hlength⟩

namespace FileTree

/-! ## Listing places -/

theorem mem_sortedBelow_iff {directory : Location} {places : List Location} {names : List String} :
    names ∈ sortedBelow directory places ↔
      names ≠ [] ∧ (⟨directory.names ++ names⟩ : Location) ∈ places := by
  unfold sortedBelow
  rw [List.mem_mergeSort, List.mem_filterMap]
  constructor
  · rintro ⟨place, hplace, hnames⟩
    obtain ⟨hne, rfl⟩ := Location.namesBelow?_eq_some_iff.mp hnames
    exact ⟨hne, hplace⟩
  · rintro ⟨hne, hplace⟩
    exact ⟨_, hplace, Location.namesBelow?_eq_some_iff.mpr ⟨hne, rfl⟩⟩

theorem not_lex_iff_le {a b : List String} : (!b.lex a) = true ↔ a ≤ b := by
  rw [Bool.not_eq_true', ← Bool.not_eq_true, List.lex_eq_true_iff_lt, not_lt]

/-- **Places are listed in order**, and each of them once. -/
theorem pairwise_sortedBelow (directory : Location) {places : List Location} (h : places.Nodup) :
    (sortedBelow directory places).Pairwise fun a b => a < b := by
  have hordered : (sortedBelow directory places).Pairwise fun a b => a ≤ b :=
    pairwise_mergeSort_key id (fun _ _ => not_lex_iff_le) _
  -- names tell places apart
  have hapart : (places.filterMap directory.namesBelow?).Nodup := by
    refine h.filterMap fun place other names hplace hother => ?_
    rw [(Location.namesBelow?_eq_some_iff.mp hplace).2,
      (Location.namesBelow?_eq_some_iff.mp hother).2]
  have honce : (sortedBelow directory places).Nodup :=
    (List.mergeSort_perm _ _).nodup_iff.mpr hapart
  exact (hordered.and honce).imp fun ⟨hle, hne⟩ => lt_of_le_of_ne hle hne

/-! ## Files -/

variable {t : FileTree} {directory : Location} {names : List String}

/-- **The files below a directory** are those whose names go on from it. -/
theorem mem_below_iff : names ∈ t.below directory ↔
    names ≠ [] ∧ ∃ content, t.entry? ⟨directory.names ++ names⟩ = some (.file content) := by
  unfold below
  rw [mem_sortedBelow_iff, mem_files_iff]

end FileTree

end ExpectedDiagnostics
