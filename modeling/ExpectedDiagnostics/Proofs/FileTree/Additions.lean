import ExpectedDiagnostics.Proofs.FileTree
import Mathlib.Data.List.Nodup

/-!
# Files that come and go

A file that is written where nothing was stands behind all others, and nothing else changes
(`Adds`). Removing all files that were written in this way gives back the very tree that there was
before them.

Main results:

* `Adds.write` — one more file, where nothing is.
* `Adds.entry?` — what is where in the grown tree.
* `Adds.removed` — removing the added files undoes adding them.
* `Adds.locate` — where a path leads in the grown tree, it led before.
-/

namespace ExpectedDiagnostics

namespace FileTree

variable {t other : FileTree} {place : Location} {added : List (Location × List UInt8)}

/-! ## Where nothing is -/

theorem not_mem_of_entry?_eq_none (h : t.entry? place = none) : place ∉ t.files.map (·.1) := by
  rw [mem_files_iff, h]
  exact nofun

theorem filter_ne_eq_self {files : List (Location × List UInt8)} (h : place ∉ files.map (·.1)) :
    files.filter (·.1 != place) = files := by
  rw [List.filter_eq_self]
  intro file hfile
  rw [bne_iff_ne]
  rintro rfl
  exact h (List.mem_map_of_mem hfile)

/-- Removing a file that was written where nothing was undoes writing it. -/
theorem remove_write (h : t.entry? place = none) (content : List UInt8) :
    (t.write place content).remove place = t := by
  have hself := filter_ne_eq_self (not_mem_of_entry?_eq_none h)
  unfold write remove
  dsimp only
  rw [hself, List.filter_append, hself, List.filter_cons_of_neg (by simp), List.filter_nil,
    List.append_nil]

/-- Removing files one after the other leaves those at other places. -/
theorem foldl_remove (places : List Location) (t : FileTree) :
    places.foldl remove t = { t with files := t.files.filter (!places.contains ·.1) } := by
  induction places generalizing t with
  | nil =>
    have hall : t.files.filter (fun file => !([] : List Location).contains file.1) = t.files :=
      List.filter_eq_self.mpr fun _ _ => rfl
    rw [hall]
    rfl
  | cons place places ih =>
    rw [List.foldl_cons, ih]
    unfold remove
    dsimp only
    rw [List.filter_filter]
    congr 1
    refine List.filter_congr fun file _ => ?_
    rw [List.contains_cons, Bool.not_or, Bool.and_comm]
    rfl

/-! ## Added files -/

/-- The second tree is the first one with these files more: they stand where nothing was, and
everything else is as it was. -/
structure Adds (t other : FileTree) (added : List (Location × List UInt8)) : Prop where
  directories : other.directories = t.directories
  files : other.files = t.files ++ added
  fresh : ∀ file ∈ added, t.entry? file.1 = none
  distinct : (added.map (·.1)).Nodup

namespace Adds

theorem refl (t : FileTree) : t.Adds t [] where
  directories := rfl
  files := (List.append_nil _).symm
  fresh _ hfile := absurd hfile List.not_mem_nil
  distinct := List.nodup_nil

/-- What is where in the grown tree: the added files, and what was there before. -/
theorem entry? (h : t.Adds other added) (q : Location) :
    other.entry? q = match added.lookup q with
      | some content => some (.file content)
      | none => t.entry? q := by
  unfold FileTree.entry?
  rw [h.directories, h.files, List.lookup_append]
  cases hold : t.files.lookup q with
  | none => cases added.lookup q <;> rfl
  | some content =>
    rw [Option.some_or]
    -- nothing was where the added files are
    have hnew : added.lookup q = none := by
      rw [List.lookup_eq_none_iff]
      intro file hfile
      rw [bne_iff_ne]
      rintro rfl
      have hfresh := h.fresh file hfile
      unfold FileTree.entry? at hfresh
      rw [hold] at hfresh
      exact absurd hfresh (by simp)
    rw [hnew]

theorem entry?_of_not_mem (h : t.Adds other added) {q : Location} (hq : q ∉ added.map (·.1)) :
    other.entry? q = t.entry? q := by
  have hnew : added.lookup q = none := by
    rw [List.lookup_eq_none_iff]
    intro file hfile
    rw [bne_iff_ne]
    rintro rfl
    exact hq (List.mem_map_of_mem hfile)
  rw [h.entry?, hnew]

/-- What is at a place of the grown tree is an added file, or was there before. -/
theorem entry?_cases (h : t.Adds other added) {q : Location} {entry : Entry}
    (hentry : other.entry? q = some entry) :
    (∃ content, (q, content) ∈ added ∧ entry = .file content) ∨ t.entry? q = some entry := by
  rw [h.entry?] at hentry
  split at hentry
  · rename_i content hlookup
    obtain ⟨before, after, hsplit, -⟩ := List.lookup_eq_some_iff.mp hlookup
    refine .inl ⟨content, ?_, (Option.some.inj hentry).symm⟩
    rw [hsplit]
    exact List.mem_append_right _ List.mem_cons_self
  · exact .inr hentry

theorem toExtends (h : t.Adds other added) : t.Extends other := by
  intro q entry hentry
  rw [h.entry?_of_not_mem]
  · exact hentry
  · intro hmem
    obtain ⟨file, hfile, rfl⟩ := List.mem_map.mp hmem
    rw [h.fresh file hfile] at hentry
    exact absurd hentry (by simp)

/-- **One more file, where nothing is.** -/
theorem write (h : t.Adds other added) (hfree : other.entry? place = none)
    (content : List UInt8) :
    t.Adds (other.write place content) (added ++ [(place, content)]) := by
  have hnew := not_mem_of_entry?_eq_none hfree
  have hapart := hnew
  rw [h.files, List.map_append, List.mem_append, not_or] at hapart
  refine ⟨h.directories, ?_, ?_, ?_⟩
  · unfold FileTree.write
    dsimp only
    rw [filter_ne_eq_self hnew, h.files, List.append_assoc]
  · intro file hfile
    rcases List.mem_append.mp hfile with hfile | hfile
    · exact h.fresh file hfile
    · rw [List.mem_singleton.mp hfile, ← h.entry?_of_not_mem hapart.2]
      exact hfree
  · rw [List.map_append, List.nodup_append]
    refine ⟨h.distinct, List.nodup_singleton _, ?_⟩
    intro p hp q hq
    rw [List.map_singleton, List.mem_singleton] at hq
    intro heq
    rw [heq, hq] at hp
    exact hapart.2 hp

/-! ## Removing what was added -/

/-- **Removing the added files undoes adding them.** -/
theorem removed (h : t.Adds other added) : (added.map (·.1)).foldl remove other = t := by
  have hold : t.files.filter (fun file => !(added.map (·.1)).contains file.1) = t.files := by
    rw [List.filter_eq_self]
    intro file hfile
    rw [Bool.not_eq_true', ← Bool.not_eq_true, List.contains_iff_mem]
    intro hmem
    obtain ⟨new, hnew, hplace⟩ := List.mem_map.mp hmem
    have hfresh := h.fresh new hnew
    rw [hplace] at hfresh
    exact not_mem_of_entry?_eq_none hfresh (List.mem_map_of_mem hfile)
  have hnew : added.filter (fun file => !(added.map (·.1)).contains file.1) = [] := by
    rw [List.filter_eq_nil_iff]
    intro file hfile hkept
    rw [List.contains_iff_mem.mpr (List.mem_map_of_mem hfile)] at hkept
    exact absurd hkept (by decide)
  rw [foldl_remove, h.files, List.filter_append, hold, hnew, List.append_nil, h.directories]

/-! ## Paths in the grown tree -/

/-- A path that leads somewhere in the grown tree led there before: an added file is not on the way
to anything. -/
theorem follow (h : t.Adds other added) {here : Location} {names : List String}
    (hfollow : other.follow here names = .ok place) : t.follow here names = .ok place := by
  induction names generalizing here with
  | nil => exact hfollow
  | cons name names ih =>
    rw [FileTree.follow] at hfollow ⊢
    split at hfollow
    · rename_i hdirectory
      rcases h.entry?_cases hdirectory with ⟨content, -, hfile⟩ | hbefore
      · exact absurd hfile (by simp)
      · rw [hbefore]
        dsimp only
        split at hfollow
        · exact absurd hfollow (by simp)
        · rename_i hshort
          rw [if_neg hshort]
          exact ih hfollow
    · exact absurd hfollow (by simp)
    · exact absurd hfollow (by simp)

theorem locate (h : t.Adds other added) {here : Location} {p : Path}
    (hlocate : other.locate here p = .ok place) : t.locate here p = .ok place := by
  unfold FileTree.locate at hlocate ⊢
  split at hlocate
  · exact absurd hlocate (by simp)
  · rename_i hshort
    rw [if_neg hshort]
    exact h.follow hlocate

end Adds

end FileTree

/-! ## Texts in the grown tree -/

namespace Workspace

variable {w : Workspace} {p : Path} {text : List Char}

/-- A text is read where a path leads to a file whose octets are the text. -/
theorem readText_eq_ok_iff : w.readText p = .ok text ↔ p.hasNull = false ∧
    ∃ place content, w.tree.locate w.directory p = .ok place ∧
      w.tree.entry? place = some (.file content) ∧ textOf content = .ok text := by
  constructor
  · intro h
    obtain ⟨octets, hoctets, htext⟩ := exists_of_bind_eq_ok h
    obtain ⟨hnull, hread⟩ := read_of_readOctets hoctets
    obtain ⟨place, hlocate, hentry⟩ := FileTree.read_eq_ok_iff.mp hread
    exact ⟨hnull, place, octets, hlocate, hentry, exists_of_mapError_eq_ok htext⟩
  · rintro ⟨hnull, place, content, hlocate, hentry, htext⟩
    have hread : w.readOctets p = .ok content := by
      unfold readOctets
      rw [hnull, FileTree.read_eq_ok_iff.mpr ⟨place, hlocate, hentry⟩]
      rfl
    unfold readText
    rw [hread]
    show (textOf content).mapError _ = _
    rw [htext]
    rfl

end Workspace

end ExpectedDiagnostics
