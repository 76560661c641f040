import ExpectedDiagnostics.Diagnostic
import ExpectedDiagnostics.Proofs.StableSort
import Mathlib.Data.Prod.Lex
import Mathlib.Data.String.Basic
import Mathlib.Order.Lex

/-!
# The order of diagnostics

The rank of a diagnostic is made up of five parts: its file, which counts as the empty text where
there is none, its line, its column, its code and its message on one line. Ranks are in
lexicographic order, and texts are compared by their characters, so two ranks are never apart
without one of them coming first. Comparing keys is comparing ranks. Sorting by them is stable, and
so there is exactly one way to sort a list of diagnostics, though their messages may be made up in
different ways where their ranks are equal.

Main results:

* `Key.le_iff` — keys are compared as ranks are.
* `isStableSort_iff` — sorting gives the one stable sort.
* `sublist_sort_iff` — diagnostics of equal ranks keep their order.
-/

namespace ExpectedDiagnostics.Diagnostic

/-! ## Ranks and keys -/

/-- Five parts, the first of which that differs decides. -/
abbrev Rank : Type :=
  String ×ₗ Int ×ₗ Int ×ₗ Int ×ₗ String

/-- Where a diagnostic ranks: by its file, or the empty text where it has none, its line, its
column, its code and its message on one line. -/
def rank (d : Diagnostic) : Rank :=
  toLex (d.file.getD "", toLex (d.line, toLex (d.column, toLex (d.code, d.message.flat))))

namespace Key

/-- The rank that the parts of a key make up. -/
def toRank (k : Key) : Rank :=
  toLex (k.file, toLex (k.line, toLex (k.column, toLex (k.code, k.text))))

theorem toRank_injective : Function.Injective toRank := by
  rintro ⟨file, line, column, code, text⟩ ⟨file', line', column', code', text'⟩ h
  simpa [toRank] using h

/-- One comparison before the others decides, unless it finds no difference. -/
private theorem isLE_compareLex {β : Type} [LinearOrder β] (f : Key → β)
    (others : Key → Key → Ordering) (a b : Key) :
    (compareLex (compareOn f) others a b).isLE = true ↔
      f a < f b ∨ f a = f b ∧ (others a b).isLE = true := by
  unfold compareLex compareOn
  rw [Ordering.isLE_then_iff_or, compare_lt_iff_lt, compare_eq_iff_eq]

theorem le_iff {a b : Key} : a.le b = true ↔ a.toRank ≤ b.toRank := by
  have hlast : (compareOn Key.text a b).isLE = true ↔ a.text ≤ b.text := by
    unfold compareOn
    rw [← Ordering.ne_gt_iff_isLE]
    exact compare_le_iff_le
  unfold le order toRank
  -- each comparison is one level of the lexicographic order
  rw [isLE_compareLex, isLE_compareLex, isLE_compareLex, isLE_compareLex, hlast]
  simp only [Prod.Lex.toLex_le_toLex]

end Key

/-- The parts of the key are those of the rank. -/
theorem toRank_key (d : Diagnostic) : d.key.toRank = d.rank :=
  rfl

theorem key_le_iff {a b : Diagnostic} : a.key.le b.key = true ↔ a.rank ≤ b.rank := by
  rw [Key.le_iff, toRank_key, toRank_key]

theorem key_eq_iff {a b : Diagnostic} : a.key = b.key ↔ a.rank = b.rank := by
  rw [← Key.toRank_injective.eq_iff, toRank_key, toRank_key]

/-! ## Sorting -/

/-- A list is a stable sort of another one: it has the same members in the order of their ranks, and
those of equal ranks are in the order in which they were. -/
structure IsStableSort (ds sorted : List Diagnostic) : Prop where
  perm : sorted.Perm ds
  ordered : sorted.Pairwise fun a b => a.rank ≤ b.rank
  stable : ∀ r, sorted.filter (fun d => d.rank = r) = ds.filter fun d => d.rank = r

variable {ds sorted : List Diagnostic}

theorem isStableSort_sort (ds : List Diagnostic) : IsStableSort ds (sort ds) where
  perm := List.mergeSort_perm ds _
  ordered := pairwise_mergeSort_key rank (fun _ _ => key_le_iff) ds
  stable := filter_key_mergeSort rank (fun _ _ => key_le_iff) ds

/-- **There is one stable sort**, and sorting gives it. -/
theorem isStableSort_iff : IsStableSort ds sorted ↔ sorted = sort ds := by
  constructor
  · intro h
    apply eq_of_filter_key_eq h.ordered (isStableSort_sort ds).ordered
    intro r
    -- both have the pieces of the list that is sorted
    exact (h.stable r).trans ((isStableSort_sort ds).stable r).symm
  · rintro rfl
    exact isStableSort_sort ds

theorem mem_sort {d : Diagnostic} : d ∈ sort ds ↔ d ∈ ds :=
  (isStableSort_sort ds).perm.mem_iff

/-- What is in order already is not changed by sorting. -/
theorem sort_eq_self (h : ds.Pairwise fun a b => a.rank ≤ b.rank) : sort ds = ds :=
  mergeSort_eq_self_of_key rank (fun _ _ => key_le_iff) h

/-- **Diagnostics of equal ranks keep their order.** -/
theorem sublist_sort_iff {few : List Diagnostic} {r : Rank} (h : ∀ d ∈ few, d.rank = r) :
    few.Sublist (sort ds) ↔ few.Sublist ds := by
  have hpiece : few.filter (fun d => d.rank = r) = few :=
    List.filter_eq_self.mpr fun d hd => decide_eq_true (h d hd)
  have hstable := (isStableSort_sort ds).stable r
  -- they are in the piece of their rank, and sorting keeps this piece
  constructor
  · intro hsub
    have hsub' := hsub.filter fun d => d.rank = r
    rw [hpiece, hstable] at hsub'
    exact hsub'.trans List.filter_sublist
  · intro hsub
    have hsub' := hsub.filter fun d => d.rank = r
    rw [hpiece, ← hstable] at hsub'
    exact hsub'.trans List.filter_sublist

end ExpectedDiagnostics.Diagnostic
