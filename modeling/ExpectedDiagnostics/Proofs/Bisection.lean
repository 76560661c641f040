import Mathlib.Data.List.Basic
import Mathlib.Data.List.TakeWhile
import Mathlib.Tactic.Common

/-!
# Looking up by halving

In a list in which whatever stands in front of an element that passes a test passes it as well, the
elements that pass come first. Where they end can be found by halving. It comes to the same whether
one cuts the list there, takes elements as long as they pass, or looks at all of them.

Main results:

* `PassFirst.bisect_eq` — halving finds the number of elements that pass.
* `PassFirst.slice_bisect` — the elements between two places that are found by halving.
-/

namespace ExpectedDiagnostics

variable {α : Type} {p q : α → Bool} {xs : List α}

/-- Searches between two numbers for the number of elements that pass a test, by halving. -/
def bisect (p : α → Bool) (xs : List α) (low high : Nat) : Nat :=
  if low < high then
    if xs[(low + high) / 2]?.any p then bisect p xs ((low + high) / 2 + 1) high
    else bisect p xs low ((low + high) / 2)
  else low
termination_by high - low

/-- Whatever stands in front of an element that passes the test passes it as well. -/
def PassFirst (p : α → Bool) (xs : List α) : Prop :=
  xs.Pairwise fun a b => p b = true → p a = true

namespace PassFirst

theorem filter (h : PassFirst p xs) (q : α → Bool) : PassFirst p (xs.filter q) :=
  List.Pairwise.filter q h

/-- **The elements that pass come first**, and those that fail come behind them. -/
theorem eq_append (h : PassFirst p xs) : xs = xs.filter p ++ xs.filter fun x => !p x := by
  induction xs with
  | nil => rfl
  | cons x xs ih =>
    obtain ⟨hfirst, hrest⟩ := List.pairwise_cons.mp h
    by_cases hx : p x = true
    · rw [List.filter_cons_of_pos hx, List.filter_cons_of_neg (by simp [hx]), List.cons_append,
        ← ih hrest]
    · -- once an element has failed, all others fail
      have hall : ∀ y ∈ x :: xs, ¬ p y = true := by
        intro y hy
        rcases List.mem_cons.mp hy with rfl | hy
        · exact hx
        · exact fun hpass => hx (hfirst y hy hpass)
      rw [List.filter_eq_nil_iff.mpr hall, List.nil_append, List.filter_eq_self.mpr]
      intro y hy
      simp [hall y hy]

theorem takeWhile_eq (h : PassFirst p xs) : xs.takeWhile p = xs.filter p := by
  have hfront : ∀ x ∈ xs.filter p, p x = true := fun x hx => List.of_mem_filter hx
  have hback : (xs.filter fun x => !p x).takeWhile p = [] := by
    cases hfail : xs.filter fun x => !p x with
    | nil => rfl
    | cons y ys =>
      have hy : y ∈ xs.filter fun x => !p x := by
        rw [hfail]
        exact List.mem_cons_self
      exact List.takeWhile_cons_of_neg (by simpa using List.of_mem_filter hy)
  conv_lhs => rw [h.eq_append]
  rw [List.takeWhile_append_of_pos hfront, hback, List.append_nil]

theorem dropWhile_eq (h : PassFirst p xs) : xs.dropWhile p = xs.filter fun x => !p x := by
  have hcut : xs.filter p ++ xs.dropWhile p = xs.filter p ++ xs.filter fun x => !p x := by
    rw [← h.takeWhile_eq, List.takeWhile_append_dropWhile, h.takeWhile_eq]
    exact h.eq_append
  exact List.append_cancel_left hcut

/-! ## Places in the list -/

/-- An element passes exactly if its place is among the first ones. -/
theorem any_getElem? (h : PassFirst p xs) (i : Nat) :
    xs[i]?.any p = decide (i < (xs.filter p).length) := by
  conv_lhs => rw [h.eq_append]
  by_cases hi : i < (xs.filter p).length
  · rw [List.getElem?_append_left hi, List.getElem?_eq_getElem hi, decide_eq_true hi,
      Option.any_some]
    exact List.of_mem_filter (List.getElem_mem hi)
  · rw [List.getElem?_append_right (Nat.not_lt.mp hi), decide_eq_false hi, Option.any_eq_false]
    intro x hx
    have hfail := List.of_mem_filter (List.mem_of_getElem? hx)
    simpa using hfail

theorem take_length (h : PassFirst p xs) : xs.take (xs.filter p).length = xs.filter p := by
  have hcut := @List.take_left _ (xs.filter p) (xs.filter fun x => !p x)
  rwa [← h.eq_append] at hcut

theorem drop_length (h : PassFirst p xs) :
    xs.drop (xs.filter p).length = xs.filter fun x => !p x := by
  have hcut := @List.drop_left _ (xs.filter p) (xs.filter fun x => !p x)
  rwa [← h.eq_append] at hcut

/-- Halving leaves the number between the two ends, so it finds it in the end. -/
theorem bisect_between (h : PassFirst p xs) (low high : Nat) (hlow : low ≤ (xs.filter p).length)
    (hhigh : (xs.filter p).length ≤ high) : bisect p xs low high = (xs.filter p).length := by
  fun_induction bisect p xs low high with
  | case1 low high hlt hpass ih =>
    rw [h.any_getElem?, decide_eq_true_iff] at hpass
    exact ih hpass hhigh
  | case2 low high hlt hfail ih =>
    rw [h.any_getElem?, decide_eq_true_iff] at hfail
    exact ih hlow (Nat.not_lt.mp hfail)
  | case3 low high hlt => omega

/-- **Halving finds the number of elements that pass.** -/
theorem bisect_eq (h : PassFirst p xs) : bisect p xs 0 xs.length = (xs.filter p).length :=
  h.bisect_between 0 xs.length (Nat.zero_le _) (List.length_filter_le p xs)

/-- **The elements between two places that halving finds** fail the one test and pass the other. -/
theorem slice_bisect (hp : PassFirst p xs) (hq : PassFirst q xs)
    (himp : ∀ x, p x = true → q x = true) :
    (xs.take (bisect q xs 0 xs.length)).drop (bisect p xs 0 xs.length) =
      (xs.filter q).filter fun x => !p x := by
  -- what passes the first test is found again among what passes the second one
  have hsame : (xs.filter q).filter p = xs.filter p := by
    rw [List.filter_filter]
    apply List.filter_congr
    intro x _
    by_cases hx : p x = true
    · rw [hx, himp x hx]
      rfl
    · rw [Bool.eq_false_iff.mpr hx]
      rfl
  rw [hp.bisect_eq, hq.bisect_eq, hq.take_length, ← hsame]
  exact (hp.filter q).drop_length

end PassFirst

end ExpectedDiagnostics
