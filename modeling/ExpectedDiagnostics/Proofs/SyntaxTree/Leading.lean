import ExpectedDiagnostics.Proofs.Bisection
import ExpectedDiagnostics.Proofs.StableSort
import ExpectedDiagnostics.Proofs.SyntaxTree.Leaves
import Mathlib.Data.Prod.Lex

/-!
# Leading comments of any tree

The leading comments of a node are looked up in the table of the tree: first the last token before
the node, and then the comments between the two. The table is in order whatever the tree is like,
even if its nodes overlap or stand in any order, so the three places can be found by halving, and
looking at every leaf of the tree comes to the same.

Main results:

* `Table.IsOrdered.leadingByHalving_eq` — the places may be found by halving.
* `endsLast_lastEnd?` — which token is found.
* `leading_perm_scan` — the leading comments are those among all comments that lie between the token
  and the node, less those on the row on which the token ends.
-/

namespace ExpectedDiagnostics.SyntaxTree

/-! ## Looking up by halving -/

namespace Table

/-- The end and the row of the last token that ends at or before a place, found by halving. -/
def lastEndByHalving? (t : Table) (place : Nat) : Option (Nat × Nat) :=
  match bisect (fun e => decide (e.1 ≤ place)) t.ends 0 t.ends.length with
  | 0 => none
  | n + 1 => t.ends[n]?

/-- The leading comments of what starts at a place, found by halving. -/
def leadingByHalving (t : Table) (place : Nat) : List Span :=
  let last := t.lastEndByHalving? place
  let border := (last.map Prod.fst).getD 0
  let low := bisect (fun c => decide (c.start < border)) t.comments 0 t.comments.length
  let high := bisect (fun c => decide (c.start < place)) t.comments 0 t.comments.length
  ((t.comments.take high).drop low).filter
    fun c => decide (c.stop ≤ place) && some c.startRow != last.map Prod.snd

/-- Tokens are ordered by where they end and then by their rows, comments by where they start. -/
structure IsOrdered (t : Table) : Prop where
  ends : t.ends.Pairwise fun a b => toLex a ≤ toLex b
  comments : t.comments.Pairwise fun a b => a.start ≤ b.start

/-- A comment lies between the last token and a place, and does not start on the row on which the
token ends. -/
def Leads (place : Nat) (last : Option (Nat × Nat)) (c : Span) : Prop :=
  (∀ e ∈ last, e.1 ≤ c.start ∧ c.startRow ≠ e.2) ∧ c.start < place ∧ c.stop ≤ place

instance (place : Nat) (last : Option (Nat × Nat)) (c : Span) : Decidable (Leads place last c) :=
  inferInstanceAs (Decidable (_ ∧ _ ∧ _))

theorem leads_none_iff {place : Nat} {c : Span} :
    Leads place none c ↔ c.start < place ∧ c.stop ≤ place :=
  and_iff_right fun _ he => absurd he (Option.not_mem_none _)

theorem leads_some_iff {place : Nat} {e : Nat × Nat} {c : Span} :
    Leads place (some e) c ↔
      (e.1 ≤ c.start ∧ c.startRow ≠ e.2) ∧ c.start < place ∧ c.stop ≤ place := by
  simp only [Leads, Option.mem_some_iff, forall_eq']

namespace IsOrdered

variable {t : Table}

theorem passFirst_ends (h : t.IsOrdered) (place : Nat) :
    PassFirst (fun e => decide (e.1 ≤ place)) t.ends := by
  refine h.ends.imp ?_
  intro a b hab hb
  rw [Prod.Lex.toLex_le_toLex] at hab
  rw [decide_eq_true_iff] at hb ⊢
  omega

theorem passFirst_comments (h : t.IsOrdered) (place : Nat) :
    PassFirst (fun c => decide (c.start < place)) t.comments := by
  refine h.comments.imp ?_
  intro a b hab hb
  rw [decide_eq_true_iff] at hb ⊢
  omega

theorem lastEnd?_eq (h : t.IsOrdered) (place : Nat) :
    t.lastEnd? place = (t.ends.filter fun e => decide (e.1 ≤ place)).getLast? := by
  unfold lastEnd?
  rw [(h.passFirst_ends place).takeWhile_eq]

theorem lastEndByHalving?_eq (h : t.IsOrdered) (place : Nat) :
    t.lastEndByHalving? place = t.lastEnd? place := by
  have hfirst := h.passFirst_ends place
  unfold lastEndByHalving?
  rw [h.lastEnd?_eq, hfirst.bisect_eq, List.getLast?_eq_getElem?]
  generalize hlength : (t.ends.filter fun e => decide (e.1 ≤ place)).length = count
  cases count with
  | zero =>
    rw [List.eq_nil_of_length_eq_zero hlength]
    rfl
  | succ n =>
    rw [Nat.add_sub_cancel, ← hfirst.take_length, hlength,
      List.getElem?_take_of_lt (Nat.lt_succ_self n)]

/-- The last token that is found ends at or before the place. -/
theorem le_of_lastEnd? (h : t.IsOrdered) {place : Nat} {e : Nat × Nat}
    (he : t.lastEnd? place = some e) : e.1 ≤ place := by
  rw [h.lastEnd?_eq] at he
  have hpass := List.of_mem_filter (List.mem_of_getLast? he)
  exact of_decide_eq_true hpass

/-- No comment of the table that starts in front of the token starts behind the place. -/
theorem border_le (h : t.IsOrdered) (place : Nat) :
    ((t.lastEnd? place).map Prod.fst).getD 0 ≤ place := by
  cases he : t.lastEnd? place with
  | none => exact Nat.zero_le place
  | some e => exact h.le_of_lastEnd? he

/-- The leading comments are all comments in the table that lead the place. -/
theorem leading_eq_filter (h : t.IsOrdered) (place : Nat) :
    t.leading place =
      t.comments.filter fun c => decide (Leads place (t.lastEnd? place) c) := by
  unfold leading
  dsimp only
  rw [(h.passFirst_comments _).dropWhile_eq, ((h.passFirst_comments place).filter _).takeWhile_eq,
    List.filter_filter, List.filter_filter]
  apply List.filter_congr
  intro c _
  rw [Bool.eq_iff_iff, decide_eq_true_iff]
  cases t.lastEnd? place with
  | none =>
    rw [leads_none_iff]
    simp [and_comm]
  | some e =>
    rw [leads_some_iff]
    simp only [Option.map_some, Option.getD_some, Bool.and_eq_true, decide_eq_true_iff,
      bne_iff_ne, ne_eq, Option.some.injEq, Bool.not_eq_true', decide_eq_false_iff_not, not_lt]
    tauto

/-- **The places may be found by halving.** -/
theorem leadingByHalving_eq (h : t.IsOrdered) (place : Nat) :
    t.leadingByHalving place = t.leading place := by
  have hborder := h.border_le place
  unfold leadingByHalving leading
  dsimp only
  rw [h.lastEndByHalving?_eq, (h.passFirst_comments _).slice_bisect (h.passFirst_comments place),
    (h.passFirst_comments _).dropWhile_eq, ((h.passFirst_comments place).filter _).takeWhile_eq]
  · -- the comments may be cut at the one place first or at the other
    exact congrArg _ (List.filter_comm _ _ _)
  · intro c hc
    rw [decide_eq_true_iff] at hc ⊢
    omega

end IsOrdered

end Table

/-! ## Looking at every leaf -/

/-- This is the end and the row of the token that ends last at or before a place, if there is one.
Empty tokens do not count. -/
inductive EndsLast (t : SyntaxTree) (place : Nat) : Option (Nat × Nat) → Prop
  | none (hbehind : ∀ s, .token s ∈ t.leaves → s.start < s.stop → place < s.stop) :
      EndsLast t place none
  | some {s : Span} (hleaf : .token s ∈ t.leaves) (hfull : s.start < s.stop)
      (hstop : s.stop ≤ place)
      (hlast : ∀ other, .token other ∈ t.leaves → other.start < other.stop → other.stop ≤ place →
        toLex (other.stop, other.stopRow) ≤ toLex (s.stop, s.stopRow)) :
      EndsLast t place (some (s.stop, s.stopRow))

theorem isOrdered_table (t : SyntaxTree) : t.table.IsOrdered where
  ends := by
    refine pairwise_mergeSort_key toLex ?_ t.tokenEnds
    intro a b
    rw [Prod.Lex.toLex_le_toLex]
    simp [endLe]
  comments := pairwise_mergeSort_key Span.start (fun _ _ => decide_eq_true_iff) t.comments

theorem mem_ends_iff {t : SyntaxTree} {e : Nat × Nat} :
    e ∈ t.table.ends ↔ ∃ s, .token s ∈ t.leaves ∧ s.start < s.stop ∧ e = (s.stop, s.stopRow) := by
  have hends := tokenEndsOf_eq [t]
  rw [tokenEndsOf, tokenEndsOf, List.append_nil, leavesOf, leavesOf, List.append_nil] at hends
  unfold table
  rw [List.mem_mergeSort, hends, List.mem_map]
  constructor
  · rintro ⟨s, hs, rfl⟩
    obtain ⟨hleaf, hfull⟩ := List.mem_filter.mp hs
    exact ⟨s, mem_tokensIn.mp hleaf, of_decide_eq_true hfull, rfl⟩
  · rintro ⟨s, hleaf, hfull, rfl⟩
    exact ⟨s, List.mem_filter.mpr ⟨mem_tokensIn.mpr hleaf, decide_eq_true hfull⟩, rfl⟩

/-- The comments in the table are those among the leaves, in another order. -/
theorem comments_perm (t : SyntaxTree) : t.table.comments.Perm (commentsIn t.leaves) := by
  have hcomments := commentsOf_eq [t]
  rw [commentsOf, commentsOf, List.nil_append, leavesOf, leavesOf, List.append_nil] at hcomments
  unfold table
  rw [hcomments]
  exact (List.mergeSort_perm _ _).trans (List.reverse_perm _)

/-- **The token that is found** ends last at or before the place, on the last row if there are
several. -/
theorem endsLast_lastEnd? (t : SyntaxTree) (place : Nat) :
    EndsLast t place (t.table.lastEnd? place) := by
  have hordered := (isOrdered_table t).ends.filter fun e => decide (e.1 ≤ place)
  rw [(isOrdered_table t).lastEnd?_eq]
  have hmem : ∀ s, .token s ∈ t.leaves → s.start < s.stop → s.stop ≤ place →
      (s.stop, s.stopRow) ∈ t.table.ends.filter fun e => decide (e.1 ≤ place) := by
    intro s hleaf hfull hstop
    exact List.mem_filter.mpr ⟨mem_ends_iff.mpr ⟨s, hleaf, hfull, rfl⟩, decide_eq_true hstop⟩
  cases hlast : (t.table.ends.filter fun e => decide (e.1 ≤ place)).getLast? with
  | none =>
    rw [List.getLast?_eq_none_iff] at hlast
    refine .none fun s hleaf hfull => Nat.not_le.mp fun hstop => ?_
    have hfound := hmem s hleaf hfull hstop
    rw [hlast] at hfound
    exact absurd hfound List.not_mem_nil
  | some e =>
    obtain ⟨front, hfront⟩ := List.getLast?_eq_some_iff.mp hlast
    obtain ⟨hends, hstop⟩ := List.mem_filter.mp (List.mem_of_getLast? hlast)
    obtain ⟨s, hleaf, hfull, rfl⟩ := mem_ends_iff.mp hends
    refine .some hleaf hfull (of_decide_eq_true hstop) ?_
    intro other hother hfull' hstop'
    -- another one is this one or stands in front of it
    have hfound := hmem other hother hfull' hstop'
    rw [hfront] at hfound hordered
    rcases List.mem_append.mp hfound with hbefore | hsame
    · exact (List.pairwise_append.mp hordered).2.2 _ hbefore _ List.mem_cons_self
    · rw [List.mem_singleton.mp hsame]

/-- **The leading comments of a node** of any tree, by where the node starts, in order: those among
all comments of the tree that start behind the token that ends last before the node, and not on its
row, and that end before the node. The table finds them by halving. -/
theorem leading_perm_scan (t : SyntaxTree) (place : Nat) :
    ∃ last, EndsLast t place last ∧
      t.table.leadingByHalving place = t.table.leading place ∧
      (t.table.leading place).Pairwise (fun a b => a.start ≤ b.start) ∧
      (t.table.leading place).Perm
        ((commentsIn t.leaves).filter fun c => decide (Table.Leads place last c)) := by
  have hordered := isOrdered_table t
  refine ⟨t.table.lastEnd? place, endsLast_lastEnd? t place, hordered.leadingByHalving_eq place,
    ?_, ?_⟩
  · rw [hordered.leading_eq_filter]
    exact hordered.comments.filter _
  · rw [hordered.leading_eq_filter]
    exact (comments_perm t).filter _

end ExpectedDiagnostics.SyntaxTree
