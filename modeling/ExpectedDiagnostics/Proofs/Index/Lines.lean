import ExpectedDiagnostics.Index.Lines
import ExpectedDiagnostics.Proofs.StableSort
import Mathlib.Data.Finset.Card
import Mathlib.Data.List.Nodup
import Mathlib.Tactic.Common

/-!
# What a file's index holds

An index by line is used through its lines only: taking a line tells what is on it, and what is left
over is told line after line. So two indexes that hold the same on every line cannot be told apart,
whatever the order in which their diagnostics came in (`SameOnLines`).

Main results:

* `on_add`, `on_drop`, `on_ofList` — what is on a line after an addition, after a take, and in an
  index of diagnostics.
* `SameOnLines.leftovers_eq` / `SameOnLines.leftoverCount_eq` — what is left over depends on the
  lines alone. The order of the leftovers is that of a stable sort by line.
* `leftovers_eq_flatMap` — what is left over, line after line in ascending order.
* `leftoverCount_eq_zero_iff` — nothing is left over exactly if no line holds anything.
* `card_lines_leftovers` — as many lines are left over as the leftovers are about, if each
  diagnostic is on the line that it is about.
-/

namespace ExpectedDiagnostics

namespace LineIndex

/-! ## Lines -/

theorem mem_on {ix : LineIndex} {line : Int} {d : Diagnostic} :
    d ∈ ix.on line ↔ (line, d) ∈ ix.entries := by
  unfold on
  rw [List.mem_map]
  constructor
  · rintro ⟨e, he, rfl⟩
    obtain ⟨hentries, hline⟩ := List.mem_filter.mp he
    rwa [← beq_iff_eq.mp hline]
  · intro h
    exact ⟨(line, d), List.mem_filter.mpr ⟨h, beq_self_eq_true line⟩, rfl⟩

theorem on_ofList (ds : List Diagnostic) (line : Int) :
    (ofList ds).on line = ds.filter fun d => d.line == line := by
  induction ds with
  | nil => rfl
  | cons d ds ih =>
    unfold on ofList at ih ⊢
    rw [List.map_cons, List.filter_cons, List.filter_cons]
    by_cases hd : d.line = line
    · simpa [hd] using ih
    · simpa [hd] using ih

/-- Adding a diagnostic to a line puts it behind what is on the line, and keeps every other one. -/
theorem on_add (ix : LineIndex) (line other : Int) (d : Diagnostic) :
    (ix.add line d).on other = if line = other then ix.on other ++ [d] else ix.on other := by
  unfold add on
  rw [List.filter_append, List.map_append]
  by_cases h : line = other
  · simp [h]
  · simp [h]

/-- Dropping a line empties it and keeps every other line. -/
theorem on_drop (ix : LineIndex) (line other : Int) :
    (ix.drop line).on other = if other = line then [] else ix.on other := by
  unfold on drop
  rw [List.filter_filter]
  by_cases ho : other = line
  · subst ho
    simp
  · rw [if_neg ho]
    congr 1
    -- an entry on the other line is not on the dropped one, so it stays
    apply List.filter_congr
    intro e _
    by_cases he : e.1 = other
    · simp [he, ho]
    · simp [he]

theorem mem_lines {ix : LineIndex} {line : Int} : line ∈ ix.lines ↔ ix.on line ≠ [] := by
  rw [lines, List.mem_eraseDups, on, Ne, List.map_eq_nil_iff, List.filter_eq_nil_iff]
  simp only [List.mem_map, beq_iff_eq, not_forall, not_not]
  constructor
  · rintro ⟨e, he, rfl⟩
    exact ⟨e, he, rfl⟩
  · rintro ⟨e, he, rfl⟩
    exact ⟨e, he, rfl⟩

/-- Erasing repetitions leaves none. The induction is on a bound of the length, because the head
is erased from the tail before the tail is looked at. -/
private theorem nodup_eraseDups_of_length_le (n : Nat) :
    ∀ lines : List Int, lines.length ≤ n → lines.eraseDups.Nodup := by
  induction n with
  | zero =>
    intro lines hn
    rw [List.length_eq_zero_iff.mp (Nat.le_zero.mp hn)]
    exact List.nodup_nil
  | succ n ih =>
    intro lines hn
    cases lines with
    | nil => exact List.nodup_nil
    | cons line others =>
      have hshort := List.length_filter_le (fun other => !other == line) others
      simp only [List.length_cons] at hn
      rw [List.eraseDups_cons, List.nodup_cons]
      exact ⟨by simp [List.mem_eraseDups], ih _ (by omega)⟩

theorem nodup_lines (ix : LineIndex) : ix.lines.Nodup :=
  nodup_eraseDups_of_length_le _ _ (Nat.le_refl _)

/-- Nothing is left over exactly if no line holds anything. -/
theorem leftoverCount_eq_zero_iff {ix : LineIndex} :
    ix.leftoverCount = 0 ↔ ∀ line, ix.on line = [] := by
  rw [leftoverCount, List.length_eq_zero_iff, List.eq_nil_iff_forall_not_mem]
  simp only [mem_lines, not_not]

/-! ## What is left over, line by line -/

/-- The leftovers are told by line. -/
theorem pairwise_sorted (entries : List (Int × Diagnostic)) :
    (entries.mergeSort fun a b => decide (a.1 ≤ b.1)).Pairwise fun a b => a.1 ≤ b.1 :=
  pairwise_mergeSort_key Prod.fst (fun _ _ => decide_eq_true_iff) entries

/-- Those of one line stay as they were added. -/
theorem filter_sorted (entries : List (Int × Diagnostic)) (line : Int) :
    (entries.mergeSort fun a b => decide (a.1 ≤ b.1)).filter (fun e => e.1 == line) =
      entries.filter fun e => e.1 == line :=
  filter_key_mergeSort Prod.fst (fun _ _ => decide_eq_true_iff) entries line

/-- An entry is its line and its diagnostic, so the piece of the entries of a line is known by what
is on the line. -/
theorem filter_entries_eq (ix : LineIndex) (line : Int) :
    ix.entries.filter (fun e => e.1 == line) = (ix.on line).map fun d => (line, d) := by
  unfold on
  rw [List.map_map]
  conv_lhs => rw [← List.map_id (ix.entries.filter fun e => e.1 == line)]
  apply List.map_congr_left
  intro e he
  have hline := (List.mem_filter.mp he).2
  simp only [beq_iff_eq] at hline
  rw [Function.comp_apply, ← hline]
  rfl

/-- Lines none of which comes twice are sorted to a strictly ascending list. -/
theorem pairwise_lt_mergeSort {lines : List Int} (h : lines.Nodup) :
    (lines.mergeSort fun a b => decide (a ≤ b)).Pairwise (· < ·) := by
  have hsorted : (lines.mergeSort fun a b => decide (a ≤ b)).Pairwise (· ≤ ·) :=
    pairwise_mergeSort_key id (fun _ _ => decide_eq_true_iff) lines
  have hnodup : (lines.mergeSort fun a b => decide (a ≤ b)).Nodup :=
    (List.mergeSort_perm lines _).nodup_iff.mpr h
  -- no line comes twice, so one that is not after another one is before it
  refine (hsorted.and hnodup).imp ?_
  rintro a b ⟨hle, hne⟩
  omega

/-- The lines that hold something can be put in strictly ascending order. -/
theorem exists_ascending_lines (ix : LineIndex) :
    ∃ lines : List Int, lines.Pairwise (· < ·) ∧ ∀ line, line ∈ lines ↔ ix.on line ≠ [] := by
  refine ⟨ix.lines.mergeSort fun a b => decide (a ≤ b), pairwise_lt_mergeSort ix.nodup_lines, ?_⟩
  intro line
  rw [List.mem_mergeSort, mem_lines]

/-- Among the pieces of different lines, the entries of a line are its own piece. -/
private theorem filter_pieces (entries : List (Int × Diagnostic)) {lines : List Int}
    (hdiff : lines.Nodup) (line : Int) :
    (lines.flatMap fun l => entries.filter (fun e => e.1 == l)).filter (fun e => e.1 == line) =
      if line ∈ lines then entries.filter (fun e => e.1 == line) else [] := by
  -- the entries of one line are kept if they are those of the line asked for, and dropped otherwise
  have hpiece : ∀ l, (entries.filter (fun e => e.1 == l)).filter (fun e => e.1 == line) =
      if line = l then entries.filter (fun e => e.1 == line) else [] := by
    intro l
    rw [List.filter_filter]
    by_cases hl : line = l
    · subst hl
      simp
    · rw [if_neg hl, List.filter_eq_nil_iff]
      rintro e - he
      simp only [Bool.and_eq_true, beq_iff_eq] at he
      exact hl (he.1.symm.trans he.2)
  induction lines with
  | nil => simp
  | cons l lines ih =>
    obtain ⟨hl, hothers⟩ := List.nodup_cons.mp hdiff
    rw [List.flatMap_cons, List.filter_append, hpiece, ih hothers]
    by_cases hline : line = l
    · subst hline
      rw [if_pos rfl, if_neg hl, if_pos List.mem_cons_self, List.append_nil]
    · rw [if_neg hline, List.nil_append]
      simp only [List.mem_cons, hline, false_or]

/-- What is left over is what the lines hold, one line after the other, and as many lines as hold
something are left over. -/
theorem leftovers_eq_flatMap {ix : LineIndex} {lines : List Int} (hasc : lines.Pairwise (· < ·))
    (hlines : ∀ line, line ∈ lines ↔ ix.on line ≠ []) :
    ix.leftovers = lines.flatMap ix.on ∧ ix.leftoverCount = lines.length := by
  have hdiff : lines.Nodup := hasc.imp fun hlt heq => by omega
  constructor
  · have hsorted : (lines.flatMap fun line =>
        ix.entries.filter (fun e => e.1 == line)).Pairwise fun a b => a.1 ≤ b.1 := by
      -- within one piece all lines are equal, and the pieces come in ascending order
      rw [List.flatMap_def, List.pairwise_flatten, List.forall_mem_map, List.pairwise_map]
      constructor
      · intro line _
        apply List.pairwise_of_forall_mem_list
        intro a ha b hb
        have hal := (List.mem_filter.mp ha).2
        have hbl := (List.mem_filter.mp hb).2
        simp only [beq_iff_eq] at hal hbl
        omega
      · refine hasc.imp ?_
        intro first second hlt a ha b hb
        have hal := (List.mem_filter.mp ha).2
        have hbl := (List.mem_filter.mp hb).2
        simp only [beq_iff_eq] at hal hbl
        omega
    have hentries : (ix.entries.mergeSort fun a b => decide (a.1 ≤ b.1)) =
        lines.flatMap fun line => ix.entries.filter (fun e => e.1 == line) := by
      apply eq_of_filter_key_eq (pairwise_sorted ix.entries) hsorted
      intro line
      simp only [← beq_eq_decide]
      rw [filter_sorted, filter_pieces ix.entries hdiff]
      split
      · rfl
      · rename_i hline
        rw [filter_entries_eq, not_not.mp (mt (hlines line).mpr hline), List.map_nil]
    unfold leftovers
    rw [hentries, List.map_flatMap]
    rfl
  · have hperm : ix.lines.Perm lines := by
      rw [List.perm_ext_iff_of_nodup ix.nodup_lines hdiff]
      intro line
      rw [mem_lines, hlines]
    exact hperm.length_eq

/-! ## The same on every line -/

/-- Two indexes that hold the same diagnostics on every line, in the same order. -/
def SameOnLines (a b : LineIndex) : Prop :=
  ∀ line, a.on line = b.on line

namespace SameOnLines

variable {a b : LineIndex}

theorem drop (h : SameOnLines a b) (line : Int) : SameOnLines (a.drop line) (b.drop line) := by
  intro other
  rw [on_drop, on_drop, h other]

/-- As many lines are left over. -/
theorem leftoverCount_eq (h : SameOnLines a b) : a.leftoverCount = b.leftoverCount := by
  -- the lines may be met in another order, but they are the same ones
  have hperm : a.lines.Perm b.lines := by
    rw [List.perm_ext_iff_of_nodup a.nodup_lines b.nodup_lines]
    intro line
    rw [mem_lines, mem_lines, h line]
  exact hperm.length_eq

/-- The same is left over, in the same order. -/
theorem leftovers_eq (h : SameOnLines a b) : a.leftovers = b.leftovers := by
  unfold leftovers
  rw [eq_of_filter_key_eq (pairwise_sorted a.entries) (pairwise_sorted b.entries)]
  intro line
  simp only [← beq_eq_decide]
  rw [filter_sorted, filter_sorted, filter_entries_eq, filter_entries_eq, h line]

end SameOnLines

/-! ## Diagnostics on their own lines -/

/-- Each diagnostic is on the line that it is about. -/
def OnOwnLines (ix : LineIndex) : Prop :=
  ∀ e ∈ ix.entries, e.1 = e.2.line

theorem onOwnLines_ofList (ds : List Diagnostic) : (ofList ds).OnOwnLines := by
  intro e he
  obtain ⟨d, -, rfl⟩ := List.mem_map.mp he
  rfl

theorem OnOwnLines.of_subset {ix other : LineIndex} (h : ix.OnOwnLines)
    (hsubset : other.entries ⊆ ix.entries) : other.OnOwnLines :=
  fun e he => h e (hsubset he)

theorem mem_leftovers {ix : LineIndex} {d : Diagnostic} :
    d ∈ ix.leftovers ↔ ∃ line, (line, d) ∈ ix.entries := by
  unfold leftovers
  rw [List.mem_map]
  constructor
  · rintro ⟨⟨line, d⟩, he, rfl⟩
    exact ⟨line, List.mem_mergeSort.mp he⟩
  · rintro ⟨line, he⟩
    exact ⟨(line, d), List.mem_mergeSort.mpr he, rfl⟩

/-- The lines that the leftovers are about are as many as the lines that are left over, from
whatever number they are counted. -/
theorem card_lines_leftovers {ix : LineIndex} (h : ix.OnOwnLines) (first : Int) :
    (ix.leftovers.map fun d => d.line + first).toFinset.card = ix.leftoverCount := by
  have hlines : (ix.leftovers.map fun d => d.line + first).toFinset =
      ix.lines.toFinset.image (· + first) := by
    ext number
    rw [List.mem_toFinset, List.mem_map, Finset.mem_image]
    constructor
    · rintro ⟨d, hd, rfl⟩
      obtain ⟨line, he⟩ := mem_leftovers.mp hd
      obtain rfl : line = d.line := h _ he
      refine ⟨d.line, ?_, rfl⟩
      rw [List.mem_toFinset, lines, List.mem_eraseDups]
      exact List.mem_map_of_mem he
    · rintro ⟨line, hline, rfl⟩
      rw [List.mem_toFinset, lines, List.mem_eraseDups] at hline
      obtain ⟨⟨line, d⟩, he, rfl⟩ := List.mem_map.mp hline
      have hown : line = d.line := h _ he
      exact ⟨d, mem_leftovers.mpr ⟨line, he⟩, by rw [← hown]⟩
  have hinjective : Function.Injective fun line : Int => line + first := by
    intro line other heq
    dsimp only at heq
    omega
  rw [hlines, Finset.card_image_of_injective _ hinjective,
    List.toFinset_card_of_nodup ix.nodup_lines]
  rfl

end LineIndex

end ExpectedDiagnostics
