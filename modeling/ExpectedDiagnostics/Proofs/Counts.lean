import ExpectedDiagnostics.Counts
import Mathlib.Algebra.BigOperators.Group.List.Basic
import Mathlib.Algebra.Order.BigOperators.Group.List
import Mathlib.Algebra.Order.Group.Int

/-!
# Sums of counts

Counts add up part by part, so the totals of a run are a sum over its files, in any order. None of
the counts of a file is negative, and so a run has no problem exactly if none of its files has one
(`passed_sum_iff`).
-/

namespace ExpectedDiagnostics.Counts

@[ext]
theorem ext_parts {a b : Counts} (hs : a.successes = b.successes) (hf : a.failures = b.failures)
    (hl : a.leftovers = b.leftovers) : a = b := by
  cases a
  cases b
  simp_all

@[simp] theorem successes_add (a b : Counts) : (a + b).successes = a.successes + b.successes := rfl
@[simp] theorem failures_add (a b : Counts) : (a + b).failures = a.failures + b.failures := rfl
@[simp] theorem leftovers_add (a b : Counts) : (a + b).leftovers = a.leftovers + b.leftovers := rfl
@[simp] theorem successes_zero : (0 : Counts).successes = 0 := rfl
@[simp] theorem failures_zero : (0 : Counts).failures = 0 := rfl
@[simp] theorem leftovers_zero : (0 : Counts).leftovers = 0 := rfl

instance : AddCommMonoid Counts where
  add_assoc a b c := by ext <;> simp [Int.add_assoc]
  zero_add a := by ext <;> simp
  add_zero a := by ext <;> simp
  add_comm a b := by ext <;> simp [Int.add_comm]
  nsmul := nsmulRec

/-- Counts of things that have been counted. -/
structure Nonnegative (c : Counts) : Prop where
  successes : 0 ≤ c.successes
  failures : 0 ≤ c.failures
  leftovers : 0 ≤ c.leftovers

theorem Nonnegative.zero : Nonnegative 0 := ⟨le_refl _, le_refl _, le_refl _⟩

theorem Nonnegative.add {a b : Counts} (ha : a.Nonnegative) (hb : b.Nonnegative) :
    (a + b).Nonnegative :=
  ⟨add_nonneg ha.successes hb.successes, add_nonneg ha.failures hb.failures,
    add_nonneg ha.leftovers hb.leftovers⟩

theorem Nonnegative.sum {cs : List Counts} (h : ∀ c ∈ cs, c.Nonnegative) : cs.sum.Nonnegative := by
  induction cs with
  | nil => exact .zero
  | cons c cs ih =>
    rw [List.sum_cons]
    exact (h c List.mem_cons_self).add (ih fun x hx => h x (List.mem_cons_of_mem _ hx))

/-- There is no problem exactly if there is no failure and, where leftovers are problems, none of
them. -/
theorem passed_iff {c : Counts} {unexpected : Bool} (h : c.Nonnegative) :
    c.passed unexpected = true ↔ c.failures = 0 ∧ (unexpected = true → c.leftovers = 0) := by
  have hf := h.failures
  have hl := h.leftovers
  -- a sum of two numbers is zero only if both are, because none is negative
  unfold passed problems
  rw [beq_iff_eq]
  cases unexpected with
  | false => simp
  | true =>
    simp only [if_true, true_implies]
    omega

theorem passed_add_iff {a b : Counts} {unexpected : Bool} (ha : a.Nonnegative)
    (hb : b.Nonnegative) :
    (a + b).passed unexpected = true ↔ a.passed unexpected = true ∧ b.passed unexpected = true := by
  have haf := ha.failures
  have hal := ha.leftovers
  have hbf := hb.failures
  have hbl := hb.leftovers
  rw [passed_iff (ha.add hb), passed_iff ha, passed_iff hb]
  -- without negative counts a failure of one part cannot be made up for by another part
  simp only [failures_add, leftovers_add]
  cases unexpected with
  | false =>
    simp only [Bool.false_eq_true, false_implies, and_true]
    omega
  | true =>
    simp only [true_implies]
    omega

/-- A sum of counts has no problem exactly if none of them has one. -/
theorem passed_sum_iff {cs : List Counts} {unexpected : Bool} (h : ∀ c ∈ cs, c.Nonnegative) :
    cs.sum.passed unexpected = true ↔ ∀ c ∈ cs, c.passed unexpected = true := by
  induction cs with
  | nil =>
    simp only [List.sum_nil, List.not_mem_nil, false_implies, implies_true, iff_true]
    exact (passed_iff .zero).mpr ⟨rfl, fun _ => rfl⟩
  | cons c cs ih =>
    have hcs : ∀ x ∈ cs, x.Nonnegative := fun x hx => h x (List.mem_cons_of_mem _ hx)
    rw [List.sum_cons, List.forall_mem_cons,
      passed_add_iff (h c List.mem_cons_self) (.sum hcs), ih hcs]

end ExpectedDiagnostics.Counts
