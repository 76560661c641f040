import ExpectedDiagnostics.Lexeme
import ExpectedDiagnostics.Proofs.Utf8
import ExpectedDiagnostics.SyntaxTree
import Mathlib.Data.List.Nodup

/-!
# The leaves of a syntax tree

Read from left to right, the leaves of a tree are the tokens and the comments of a text. In a
well-formed tree they follow each other without overlap, and each inner node starts where its first
leaf does, a token. The table of the tree then holds them in this order: sorting changes nothing but
the direction in which the comments were collected.

Main results:

* `forest_induction` — the induction over the trees of a list and the trees inside them.
* `table_eq` — the table of a well-formed tree, by its leaves.
-/

namespace ExpectedDiagnostics.SyntaxTree

/-- An induction over trees in a list: the first one with the trees inside it, and the ones after
it. -/
theorem forest_induction {P : List SyntaxTree → Prop} (nil : P [])
    (cons : ∀ kind span children rest, P children → P rest → P (node kind span children :: rest)) :
    ∀ ts, P ts
  | [] => nil
  | node kind span children :: rest =>
    cons kind span children rest (forest_induction nil cons children)
      (forest_induction nil cons rest)

/-! ## Leaves -/

/-- A leaf of a tree: a token or a comment. -/
inductive Leaf
  | token (span : Span)
  | comment (span : Span)
  deriving DecidableEq, Repr

namespace Leaf

def span : Leaf → Span
  | token s => s
  | comment s => s

def token? : Leaf → Option Span
  | token s => some s
  | comment _ => none

def comment? : Leaf → Option Span
  | token _ => none
  | comment s => some s

end Leaf

mutual

/-- The leaves of a tree from left to right. -/
def leaves : SyntaxTree → List Leaf
  | node kind span children =>
    if kind == commentKind then [.comment span]
    else if children.isEmpty then [.token span]
    else leavesOf children

def leavesOf : List SyntaxTree → List Leaf
  | [] => []
  | t :: ts => leaves t ++ leavesOf ts

end

mutual

/-- The nodes of a tree, from the outside to the inside and from left to right. -/
def nodes : SyntaxTree → List SyntaxTree
  | node kind span children => node kind span children :: nodesOf children

def nodesOf : List SyntaxTree → List SyntaxTree
  | [] => []
  | t :: ts => nodes t ++ nodesOf ts

end

theorem nodesOf_cons (kind : String) (span : Span) (children rest : List SyntaxTree) :
    nodesOf (node kind span children :: rest) =
      node kind span children :: (nodesOf children ++ nodesOf rest) := by
  rw [nodesOf, nodes, List.cons_append]

def kind : SyntaxTree → String
  | node kind _ _ => kind

def span : SyntaxTree → Span
  | node _ span _ => span

def children : SyntaxTree → List SyntaxTree
  | node _ _ children => children

def tokensIn (ls : List Leaf) : List Span :=
  ls.filterMap Leaf.token?

def commentsIn (ls : List Leaf) : List Span :=
  ls.filterMap Leaf.comment?

theorem tokensIn_append (ls ms : List Leaf) : tokensIn (ls ++ ms) = tokensIn ls ++ tokensIn ms :=
  List.filterMap_append

theorem commentsIn_append (ls ms : List Leaf) :
    commentsIn (ls ++ ms) = commentsIn ls ++ commentsIn ms :=
  List.filterMap_append

theorem mem_tokensIn {ls : List Leaf} {s : Span} : s ∈ tokensIn ls ↔ .token s ∈ ls := by
  unfold tokensIn
  rw [List.mem_filterMap]
  constructor
  · rintro ⟨l, hl, hs⟩
    cases l with
    | token span =>
      obtain rfl := Option.some.inj hs
      exact hl
    | comment span => exact absurd hs (by simp [Leaf.token?])
  · intro hs
    exact ⟨.token s, hs, rfl⟩

theorem mem_commentsIn {ls : List Leaf} {s : Span} : s ∈ commentsIn ls ↔ .comment s ∈ ls := by
  unfold commentsIn
  rw [List.mem_filterMap]
  constructor
  · rintro ⟨l, hl, hs⟩
    cases l with
    | token span => exact absurd hs (by simp [Leaf.comment?])
    | comment span =>
      obtain rfl := Option.some.inj hs
      exact hl
  · intro hs
    exact ⟨.comment s, hs, rfl⟩

theorem tokensIn_map_token (ss : List Span) : tokensIn (ss.map .token) = ss := by
  induction ss with
  | nil => rfl
  | cons s ss ih => exact congrArg (s :: ·) ih

theorem tokensIn_map_comment (cs : List Span) : tokensIn (cs.map .comment) = [] := by
  induction cs with
  | nil => rfl
  | cons c cs ih => exact ih

theorem commentsIn_map_token (ss : List Span) : commentsIn (ss.map .token) = [] := by
  induction ss with
  | nil => rfl
  | cons s ss ih => exact ih

theorem commentsIn_map_comment (cs : List Span) : commentsIn (cs.map .comment) = cs := by
  induction cs with
  | nil => rfl
  | cons c cs ih => exact congrArg (c :: ·) ih

/-! ## What the table is made of -/

theorem tokenEndsOf_eq (ts : List SyntaxTree) :
    tokenEndsOf ts = ((tokensIn (leavesOf ts)).filter fun s => s.start < s.stop).map
      fun s => (s.stop, s.stopRow) := by
  induction ts using forest_induction with
  | nil => rfl
  | cons kind span children rest ihc ihr =>
    rw [tokenEndsOf, leavesOf, tokensIn_append, List.filter_append, List.map_append, ← ihr,
      tokenEnds, leaves]
    congr 1
    -- a comment, a token, or a node with others inside
    by_cases hkind : (kind == commentKind) = true
    · rw [if_pos hkind, if_pos hkind]
      rfl
    · rw [if_neg hkind, if_neg hkind]
      by_cases hc : children.isEmpty = true
      · rw [if_pos hc, if_pos hc]
        by_cases hspan : span.start < span.stop
        · simp [hspan, tokensIn, Leaf.token?]
        · simp [hspan, tokensIn, Leaf.token?]
      · rw [if_neg hc, if_neg hc, ihc]

theorem commentsOf_eq (ts : List SyntaxTree) :
    commentsOf ts = (commentsIn (leavesOf ts)).reverse := by
  induction ts using forest_induction with
  | nil => rfl
  | cons kind span children rest ihc ihr =>
    rw [commentsOf, leavesOf, commentsIn_append, List.reverse_append, ← ihr, comments, leaves]
    congr 1
    -- a token has no comments, which is what a node with nothing inside comes to
    by_cases hkind : (kind == commentKind) = true
    · rw [if_pos hkind, if_pos hkind]
      rfl
    · rw [if_neg hkind, if_neg hkind]
      by_cases hc : children.isEmpty = true
      · rw [if_pos hc, List.isEmpty_iff.mp hc]
        rfl
      · rw [if_neg hc, ihc]

/-! ## Well-formed trees -/

/-- The leaves follow each other without overlap, and none is empty. -/
structure Laid (ls : List Leaf) : Prop where
  nonempty : ∀ l ∈ ls, l.span.start < l.span.stop
  apart : ls.Pairwise fun a b => a.span.stop ≤ b.span.start

/-- The tree of a text: its leaves lie in the text from left to right, comments are leaves, and each
other inner node starts where its first leaf does, a token. -/
structure WellFormed (text : String) (t : SyntaxTree) : Prop where
  root : t.kind = rootKind
  comments_are_leaves : ∀ n ∈ nodesOf t.children, n.kind = commentKind → n.children = []
  starts_at_token : ∀ n ∈ nodesOf t.children, n.kind ≠ commentKind → n.children ≠ [] →
    ∃ s rest, leavesOf n.children = .token s :: rest ∧ s.start = n.span.start
  laid : Laid (leavesOf t.children)
  boundaries : ∀ l ∈ leavesOf t.children,
    Utf8.IsBoundary text.toList l.span.start ∧ Utf8.IsBoundary text.toList l.span.stop

/-- A text of two tokens and three comments. The first comment has a marker, the second one is on
the row of a token. -/
def sampleText : String := "//%ts-expect-error: é (1)\nx // b\n// c\ny"

/-- A tree of this text, with each token in a node of its own. -/
def sampleTree : SyntaxTree :=
  node rootKind ⟨0, 40, 0, 3⟩
    [node commentKind ⟨0, 26, 0, 0⟩ [],
      node "statement" ⟨27, 28, 1, 1⟩ [node "name" ⟨27, 28, 1, 1⟩ []],
      node commentKind ⟨29, 33, 1, 1⟩ [], node commentKind ⟨34, 38, 2, 2⟩ [],
      node "statement" ⟨39, 40, 3, 3⟩ [node "name" ⟨39, 40, 3, 3⟩ []]]

theorem leavesOf_sampleTree : leavesOf sampleTree.children =
    [.comment ⟨0, 26, 0, 0⟩, .token ⟨27, 28, 1, 1⟩, .comment ⟨29, 33, 1, 1⟩,
      .comment ⟨34, 38, 2, 2⟩, .token ⟨39, 40, 3, 3⟩] := rfl

theorem wellFormed_sampleTree : WellFormed sampleText sampleTree where
  root := rfl
  comments_are_leaves := by simp [sampleTree, children, nodesOf, nodes, kind, commentKind]
  starts_at_token := by
    simp [sampleTree, children, nodesOf, nodes, kind, commentKind, leavesOf, leaves, span]
  laid := ⟨by decide, by decide⟩
  boundaries := by
    rw [leavesOf_sampleTree]
    decide +kernel

namespace Laid

variable {ls : List Leaf}

/-- What is among the first leaves ends before what is among the others starts. -/
theorem stop_le_start {ms : List Leaf} (h : Laid (ls ++ ms)) {a b : Leaf} (ha : a ∈ ls)
    (hb : b ∈ ms) : a.span.stop ≤ b.span.start :=
  (List.pairwise_append.mp h.apart).2.2 a ha b hb

theorem tokens_apart (h : Laid ls) :
    (tokensIn ls).Pairwise fun a b => a.stop ≤ b.start := by
  refine h.apart.filterMap Leaf.token? ?_
  intro a b hab s hs t ht
  cases a with
  | token a =>
    cases b with
    | token b =>
      obtain rfl := Option.some.inj hs
      obtain rfl := Option.some.inj ht
      exact hab
    | comment b => exact absurd ht (by simp [Leaf.token?])
  | comment a => exact absurd hs (by simp [Leaf.token?])

theorem comments_apart (h : Laid ls) :
    (commentsIn ls).Pairwise fun a b => a.stop ≤ b.start := by
  refine h.apart.filterMap Leaf.comment? ?_
  intro a b hab s hs t ht
  cases a with
  | token a => exact absurd hs (by simp [Leaf.comment?])
  | comment a =>
    cases b with
    | token b => exact absurd ht (by simp [Leaf.comment?])
    | comment b =>
      obtain rfl := Option.some.inj hs
      obtain rfl := Option.some.inj ht
      exact hab

theorem token_nonempty (h : Laid ls) {s : Span} (hs : s ∈ tokensIn ls) : s.start < s.stop :=
  h.nonempty (.token s) (mem_tokensIn.mp hs)

theorem comment_nonempty (h : Laid ls) {s : Span} (hs : s ∈ commentsIn ls) : s.start < s.stop :=
  h.nonempty (.comment s) (mem_commentsIn.mp hs)

/-- The comments start at different places, in order. -/
theorem comments_increasing (h : Laid ls) :
    (commentsIn ls).Pairwise fun a b => a.start < b.start := by
  refine h.comments_apart.imp_of_mem ?_
  intro a b ha _ hab
  exact Nat.lt_of_lt_of_le (h.comment_nonempty ha) hab

/-- A comment is known by where it starts. -/
theorem comment_eq (h : Laid ls) {a b : Span} (ha : a ∈ commentsIn ls) (hb : b ∈ commentsIn ls)
    (hab : a.start = b.start) : a = b := by
  have hnodup : ((commentsIn ls).map Span.start).Nodup := by
    rw [List.Nodup, List.pairwise_map]
    exact h.comments_increasing.imp Nat.ne_of_lt
  exact List.inj_on_of_nodup_map hnodup ha hb hab

/-- The token ends are in order already. -/
theorem sort_ends (h : Laid ls) :
    ((tokensIn ls).map fun s => (s.stop, s.stopRow)).mergeSort endLe =
      (tokensIn ls).map fun s => (s.stop, s.stopRow) := by
  apply List.mergeSort_of_pairwise
  rw [List.pairwise_map]
  refine h.tokens_apart.imp_of_mem ?_
  intro a b _ hb hab
  -- a token is not empty, so it ends after the one before it
  have hlt : a.stop < b.stop := Nat.lt_of_le_of_lt hab (h.token_nonempty hb)
  simp [endLe, hlt]

/-- Sorting the comments turns them around. -/
theorem sort_comments (h : Laid ls) :
    ((commentsIn ls).reverse.mergeSort fun a b => decide (a.start ≤ b.start)) =
      commentsIn ls := by
  have hperm : ((commentsIn ls).reverse.mergeSort fun a b => decide (a.start ≤ b.start)).Perm
      (commentsIn ls) := (List.mergeSort_perm _ _).trans (List.reverse_perm _)
  have hsorted : ((commentsIn ls).reverse.mergeSort
      fun a b => decide (a.start ≤ b.start)).Pairwise fun a b => a.start ≤ b.start := by
    refine (List.pairwise_mergeSort ?_ ?_ _).imp of_decide_eq_true
    · intro a b c hab hbc
      exact decide_eq_true (Nat.le_trans (of_decide_eq_true hab) (of_decide_eq_true hbc))
    · intro a b
      rw [Bool.or_eq_true, decide_eq_true_iff, decide_eq_true_iff]
      exact Nat.le_total _ _
  -- no two comments start at the same place, so there is only one sorted order of them
  have hanti : ∀ a b : Span, a ∈ (commentsIn ls).reverse.mergeSort
      (fun a b => decide (a.start ≤ b.start)) → b ∈ commentsIn ls → a.start ≤ b.start →
      b.start ≤ a.start → a = b := by
    intro a b ha hb hab hba
    exact h.comment_eq (hperm.mem_iff.mp ha) hb (Nat.le_antisymm hab hba)
  exact List.Perm.eq_of_pairwise hanti hsorted (h.comments_increasing.imp Nat.le_of_lt) hperm

end Laid

/-- The nodes of a well-formed tree that can lead comments are inside its root. -/
theorem WellFormed.leaders_eq {text : String} {t : SyntaxTree} (h : WellFormed text t) :
    t.leaders = leadersOf t.children := by
  obtain ⟨kind, span, children⟩ := t
  obtain rfl : kind = rootKind := h.root
  rw [leaders, if_neg (by decide), if_pos (by decide)]
  rfl

/-- The comments of a well-formed tree are those among its leaves, from right to left. -/
theorem WellFormed.comments_eq {text : String} {t : SyntaxTree} (h : WellFormed text t) :
    t.comments = (commentsIn (leavesOf t.children)).reverse := by
  obtain ⟨kind, span, children⟩ := t
  obtain rfl : kind = rootKind := h.root
  rw [comments, if_neg (by decide)]
  exact commentsOf_eq children

/-- The token ends of a well-formed tree are those of its leaves, if there are any. -/
theorem WellFormed.tokenEnds_eq {text : String} {t : SyntaxTree} (h : WellFormed text t)
    (hchildren : t.children ≠ []) :
    t.tokenEnds = (tokensIn (leavesOf t.children)).map fun s => (s.stop, s.stopRow) := by
  -- the table leaves out empty tokens, and there are none
  have hfull : (tokensIn (leavesOf t.children)).filter (fun s => s.start < s.stop) =
      tokensIn (leavesOf t.children) := by
    rw [List.filter_eq_self]
    exact fun s hs => decide_eq_true (h.laid.token_nonempty hs)
  obtain ⟨kind, span, children⟩ := t
  obtain rfl : kind = rootKind := h.root
  have hempty : ¬ children.isEmpty = true := by
    rw [List.isEmpty_iff]
    exact hchildren
  rw [tokenEnds, if_neg (by decide), if_neg hempty, tokenEndsOf_eq]
  exact congrArg _ hfull

theorem WellFormed.comment_mem {text : String} {t : SyntaxTree} (h : WellFormed text t) {c : Span}
    (hc : c ∈ t.table.comments) : .comment c ∈ leavesOf t.children := by
  unfold table at hc
  rw [List.mem_mergeSort, h.comments_eq, List.mem_reverse] at hc
  exact mem_commentsIn.mp hc

/-- A comment in the table lies in the text. -/
theorem WellFormed.comment_lies {text : String} {t : SyntaxTree} (h : WellFormed text t) {c : Span}
    (hc : c ∈ t.table.comments) : Utf8.IsBoundary text.toList c.start ∧
      Utf8.IsBoundary text.toList c.stop ∧ c.start < c.stop := by
  have hleaf := h.comment_mem hc
  exact ⟨(h.boundaries _ hleaf).1, (h.boundaries _ hleaf).2, h.laid.nonempty _ hleaf⟩

/-- The table of leaves, which has their tokens and comments from left to right. -/
def tableOf (ls : List Leaf) : Table :=
  ⟨(tokensIn ls).map fun s => (s.stop, s.stopRow), commentsIn ls⟩

/-- The table of a well-formed tree is that of its leaves. -/
theorem table_eq {text : String} {t : SyntaxTree} (h : WellFormed text t)
    (hchildren : t.children ≠ []) : t.table = tableOf (leavesOf t.children) := by
  unfold table tableOf
  rw [h.tokenEnds_eq hchildren, h.comments_eq, h.laid.sort_ends, h.laid.sort_comments]

end ExpectedDiagnostics.SyntaxTree
