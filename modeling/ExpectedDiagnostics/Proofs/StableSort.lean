import Mathlib.Order.Lattice
import Mathlib.Tactic.Common

/-!
# Sorting by a key

A sort by a key orders the keys, and it is stable: elements with equal keys keep their order. Both
together determine what a sort gives. A sorted list is known by its pieces of equal keys, and a
stable sort keeps every piece, so two lists with the same pieces are sorted to the same list.

Main results:

* `pairwise_mergeSort_key` / `filter_key_mergeSort` — sorting sorts, and keeps the pieces.
* `eq_of_filter_key_eq` — a sorted list is known by its pieces.
-/

namespace ExpectedDiagnostics

variable {α κ : Type} [LinearOrder κ] {key : α → κ}

/-! ## The order -/

private theorem le_trans_of_key {le : α → α → Bool}
    (hle : ∀ a b, le a b = true ↔ key a ≤ key b) (a b c : α) (hab : le a b = true)
    (hbc : le b c = true) : le a c = true := by
  rw [hle] at hab hbc ⊢
  exact le_trans hab hbc

private theorem le_total_of_key {le : α → α → Bool}
    (hle : ∀ a b, le a b = true ↔ key a ≤ key b) (a b : α) : (le a b || le b a) = true := by
  rw [Bool.or_eq_true, hle, hle]
  exact le_total _ _

/-- Sorting by a key sorts. -/
theorem pairwise_mergeSort_key (key : α → κ) {le : α → α → Bool}
    (hle : ∀ a b, le a b = true ↔ key a ≤ key b) (xs : List α) :
    (xs.mergeSort le).Pairwise fun a b => key a ≤ key b :=
  (List.pairwise_mergeSort (le_trans_of_key hle) (le_total_of_key hle) xs).imp (hle _ _).mp

/-- What is sorted by a key already is not changed by sorting. -/
theorem mergeSort_eq_self_of_key (key : α → κ) {le : α → α → Bool}
    (hle : ∀ a b, le a b = true ↔ key a ≤ key b) {xs : List α}
    (h : xs.Pairwise fun a b => key a ≤ key b) : xs.mergeSort le = xs :=
  List.mergeSort_of_pairwise (h.imp (hle _ _).mpr)

/-! ## The pieces -/

variable [DecidableEq κ]

/-- Sorting by a key keeps each piece of equal keys as it is. -/
theorem filter_key_mergeSort (key : α → κ) {le : α → α → Bool}
    (hle : ∀ a b, le a b = true ↔ key a ≤ key b) (xs : List α) (k : κ) :
    (xs.mergeSort le).filter (fun a => key a = k) = xs.filter fun a => key a = k := by
  -- a piece is sorted, so a stable sort has it as a sublist; sorting keeps the number of elements
  -- with the key, and so there is no other one in between
  have hpiece : (xs.filter fun a => key a = k).Pairwise fun a b => le a b = true := by
    apply List.pairwise_of_forall_mem_list
    intro a ha b hb
    have hak := (List.mem_filter.mp ha).2
    have hbk := (List.mem_filter.mp hb).2
    rw [decide_eq_true_eq] at hak hbk
    rw [hle, hak, hbk]
  have hsub := List.sublist_mergeSort (le_trans_of_key hle) (le_total_of_key hle) hpiece
    List.filter_sublist
  have hsub' := hsub.filter fun a => key a = k
  simp only [List.filter_filter, Bool.and_self] at hsub'
  exact (hsub'.eq_of_length ((List.mergeSort_perm xs _).filter _).length_eq.symm).symm

/-- Two lists that are sorted by a key are equal if they have the same pieces of equal keys. -/
theorem eq_of_filter_key_eq {xs ys : List α} (hxs : xs.Pairwise fun a b => key a ≤ key b)
    (hys : ys.Pairwise fun a b => key a ≤ key b)
    (h : ∀ k, xs.filter (fun a => key a = k) = ys.filter fun a => key a = k) : xs = ys := by
  induction xs generalizing ys with
  | nil =>
    cases ys with
    | nil => rfl
    | cons y ys =>
      have hy := h (key y)
      simp at hy
  | cons x xs ih =>
    cases ys with
    | nil =>
      have hx := h (key x)
      simp at hx
    | cons y ys =>
      rw [List.pairwise_cons] at hxs hys
      -- each head is found in the other list, so both keys are the least one
      have hxy : key y ≤ key x := by
        have hx : x ∈ (y :: ys).filter fun a => key a = key x := by
          rw [← h]
          simp
        rcases List.mem_cons.mp (List.mem_filter.mp hx).1 with rfl | hmem
        · exact le_refl _
        · exact hys.1 x hmem
      have hyx : key x ≤ key y := by
        have hy : y ∈ (x :: xs).filter fun a => key a = key y := by
          rw [h]
          simp
        rcases List.mem_cons.mp (List.mem_filter.mp hy).1 with rfl | hmem
        · exact le_refl _
        · exact hxs.1 y hmem
      have hkey : key x = key y := le_antisymm hyx hxy
      have hhead := h (key x)
      simp only [List.filter_cons, decide_true, if_true, hkey, List.cons.injEq] at hhead
      obtain ⟨rfl, -⟩ := hhead
      -- the equal heads are in the same piece, so the pieces of the tails agree as well
      have htail : xs = ys := by
        apply ih hxs.2 hys.2
        intro k
        have hk := h k
        rw [List.filter_cons, List.filter_cons] at hk
        split at hk
        · exact (List.cons.inj hk).2
        · exact hk
      rw [htail]

end ExpectedDiagnostics
