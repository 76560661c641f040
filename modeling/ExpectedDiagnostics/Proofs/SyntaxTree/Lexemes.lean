import ExpectedDiagnostics.Proofs.SyntaxTree.Groups

/-!
# Syntax trees and lexemes

A node of a well-formed tree starts where its first token does, so it has the leading comments of
this token, and once it has told them the token has none left to tell. It makes no difference then
whether the nodes or the tokens are visited: the comment groups of a tree are those of its leaves,
read as lexemes from left to right.

Main results:

* `visits_leadersOf` — the nodes tell what the tokens tell.
* `groups_eq_lexemes` — the comment groups of a tree are those of its lexemes.
-/

namespace ExpectedDiagnostics.SyntaxTree

/-! ## Leaves as lexemes -/

def Leaf.lexeme (text : String) : Leaf → Lexeme
  | .token s => .token s.startRow s.stopRow
  | .comment c => .comment (commentText text c) c.startRow

/-- The tokens and comments of a text by its tree, from left to right. -/
def lexemes (text : String) (t : SyntaxTree) : List Lexeme :=
  t.leaves.map (Leaf.lexeme text)

/-- The comment groups of lexemes are the texts of what their tokens tell. -/
theorem lexemeGroups_eq_toldFrom (text : String) (last : Option Span) (mid : List Span)
    (ls : List Leaf) :
    Lexeme.groupsFrom (last.map (·.stopRow))
        ((mid.filter fun c => some c.startRow != last.map (·.stopRow)).map (commentText text))
        (ls.map (Leaf.lexeme text)) =
      (toldFrom last mid ls).map (groupOf text) := by
  -- a comment is left out of the lexemes' groups when it is met, and out of `toldFrom` at the next
  -- token; in both cases for the row of the last token, which stays the same until then
  induction ls generalizing last mid with
  | nil => rfl
  | cons l ls ih =>
    cases l with
    | comment c =>
      rw [List.map_cons, Leaf.lexeme, Lexeme.groupsFrom, toldFrom, ← ih, List.filter_append]
      by_cases hrow : last.map (·.stopRow) = some c.startRow
      · simp [hrow]
      · have hne : ¬ some c.startRow = last.map (·.stopRow) := fun heq => hrow heq.symm
        simp [hrow, hne]
    | token s =>
      have hrest := ih (some s) []
      rw [List.map_cons, Leaf.lexeme, Lexeme.groupsFrom, toldFrom]
      cases hfilter : mid.filter fun c => some c.startRow != last.map (·.stopRow) with
      | nil => exact hrest
      | cons first others =>
        exact congrArg (_ :: ·) hrest

/-! ## Nodes and tokens -/

/-- Visiting these nodes or those tells the same, whatever has been seen before. -/
def TellSame (t : Table) (xs ys : List Span) : Prop :=
  ∀ seen, visits t seen xs = visits t seen ys

namespace TellSame

variable {t : Table} {xs ys : List Span}

theorem cons (h : TellSame t xs ys) (s : Span) : TellSame t (s :: xs) (s :: ys) := by
  intro seen
  cases hleading : t.leading s.start with
  | nil =>
    rw [visits_cons_nil hleading, visits_cons_nil hleading]
    exact h seen
  | cons first others =>
    by_cases hseen : seen.contains first.start = true
    · rw [visits_cons_seen hleading hseen, visits_cons_seen hleading hseen]
      exact h seen
    · rw [visits_cons_new hleading hseen, visits_cons_new hleading hseen, h]

theorem append (h : TellSame t xs ys) (zs : List Span) : TellSame t (zs ++ xs) (zs ++ ys) := by
  induction zs with
  | nil => exact h
  | cons z zs ih => exact ih.cons z

/-- Two nodes that start alike tell what the second one tells. -/
theorem cons_cons {s u : Span} (hstart : u.start = s.start) (hrow : u.startRow = s.startRow)
    (xs : List Span) : TellSame t (s :: u :: xs) (u :: xs) := by
  intro seen
  cases hleading : t.leading s.start with
  | nil => rw [visits_cons_nil hleading]
  | cons first others =>
    have hleading' : t.leading u.start = first :: others := by rw [hstart, hleading]
    by_cases hseen : seen.contains first.start = true
    · rw [visits_cons_seen hleading hseen]
    -- once the first node has told the comments, they have been seen when the second one is visited
    · have hagain : (first.start :: seen).contains first.start = true := by simp
      rw [visits_cons_new hleading hseen, visits_cons_seen hleading' hagain,
        visits_cons_new hleading' hseen, hrow]

end TellSame

/-- In these trees no node is a root, and each inner node starts at a token, also by its row. -/
structure Led (ts : List SyntaxTree) : Prop where
  no_root : ∀ n ∈ nodesOf ts, n.kind ≠ rootKind
  starts : ∀ n ∈ nodesOf ts, n.kind ≠ commentKind → n.children ≠ [] →
    ∃ s rest, leavesOf n.children = .token s :: rest ∧ s.start = n.span.start ∧
      s.startRow = n.span.startRow

/-- The nodes tell what the tokens tell. -/
theorem visits_leadersOf {t : Table} {ts : List SyntaxTree} (h : Led ts) (more : List Span) :
    TellSame t (leadersOf ts ++ more) (tokensIn (leavesOf ts) ++ more) := by
  induction ts using forest_induction generalizing more with
  | nil => exact fun _ => rfl
  | cons kind span children rest ihc ihr =>
    obtain ⟨hroot, hstarts⟩ := h
    rw [nodesOf_cons] at hroot hstarts
    have hself : node kind span children ∈
        node kind span children :: (nodesOf children ++ nodesOf rest) := List.mem_cons_self
    have hrest : TellSame t (leadersOf rest ++ more) (tokensIn (leavesOf rest) ++ more) :=
      ihr ⟨fun n hn => hroot n (by simp [hn]), fun n hn => hstarts n (by simp [hn])⟩ more
    have hno : ¬ (kind == rootKind) = true := by
      rw [beq_iff_eq]
      exact hroot _ hself
    -- a comment leads nothing, a token is visited itself, and an inner node before what is in it
    rw [leadersOf, leaders, leavesOf, leaves, tokensIn_append, if_neg hno, List.append_assoc,
      List.append_assoc]
    by_cases hkind : (kind == commentKind) = true
    · rw [if_pos hkind, if_pos hkind]
      exact hrest
    · rw [if_neg hkind, if_neg hkind]
      by_cases hc : children.isEmpty = true
      · rw [if_pos hc, List.isEmpty_iff.mp hc]
        exact hrest.cons span
      · have hinner : children ≠ [] := fun hnil => hc (by rw [hnil]; rfl)
        obtain ⟨s, tail, hleaves, hstart, hrow⟩ :=
          hstarts _ hself (fun heq => hkind (beq_iff_eq.mpr heq)) hinner
        change leavesOf children = .token s :: tail at hleaves
        -- the node starts where its first token `s` does, so it takes over what `s` would tell
        have hchildren : TellSame t (leadersOf children ++ (leadersOf rest ++ more))
            (tokensIn (leavesOf children) ++ (leadersOf rest ++ more)) :=
          ihc ⟨fun n hn => hroot n (by simp [hn]), fun n hn => hstarts n (by simp [hn])⟩ _
        rw [if_neg hc]
        intro seen
        calc visits t seen (span :: (leadersOf children ++ (leadersOf rest ++ more)))
            = visits t seen (span :: (tokensIn (leavesOf children) ++ (leadersOf rest ++ more))) :=
              hchildren.cons span seen
          _ = visits t seen (tokensIn (leavesOf children) ++ (leadersOf rest ++ more)) := by
              rw [hleaves]
              exact TellSame.cons_cons hstart hrow _ seen
          _ = visits t seen (tokensIn (leavesOf children) ++
                (tokensIn (leavesOf rest) ++ more)) := hrest.append _ seen

/-! ## Plain trees -/

/-- A well-formed tree with one root only, in which an inner node starts on the row of its first
leaf. -/
structure PlainlyFormed (text : String) (t : SyntaxTree) : Prop extends WellFormed text t where
  no_root_inside : ∀ n ∈ nodesOf t.children, n.kind ≠ rootKind
  starts_on_row : ∀ n ∈ nodesOf t.children, n.kind ≠ commentKind → ∀ s rest,
    leavesOf n.children = .token s :: rest → s.startRow = n.span.startRow

theorem PlainlyFormed.led {text : String} {t : SyntaxTree} (h : PlainlyFormed text t) :
    Led t.children := by
  refine ⟨h.no_root_inside, ?_⟩
  intro n hn hkind hchildren
  obtain ⟨s, rest, hleaves, hstart⟩ := h.starts_at_token n hn hkind hchildren
  exact ⟨s, rest, hleaves, hstart, h.starts_on_row n hn hkind s rest hleaves⟩

/-- A token alone has nothing to tell, so a tree without nodes inside makes no exception. -/
theorem WellFormed.toldFrom_leaves {text : String} {t : SyntaxTree} (h : WellFormed text t) :
    toldFrom none [] t.leaves = toldFrom none [] (leavesOf t.children) := by
  obtain ⟨kind, span, children⟩ := t
  obtain rfl : kind = rootKind := h.root
  rw [leaves, if_neg (by decide)]
  by_cases hc : children.isEmpty = true
  · rw [if_pos hc, List.isEmpty_iff.mp hc]
    rfl
  · rw [if_neg hc]
    rfl

theorem toldFrom_eq_visits {ls : List Leaf} (h : Laid ls) :
    toldFrom none [] ls = visits (tableOf ls) [] (tokensIn ls) := by
  refine (visits_tokensIn ?_ ?_ (fun _ => rfl) ?_).symm
  · exact h
  · rfl
  · exact fun x hx => absurd hx List.not_mem_nil

theorem visits_leaders {text : String} {t : SyntaxTree} (h : PlainlyFormed text t) :
    visits t.table [] t.leaders = toldFrom none [] (leavesOf t.children) := by
  rw [h.leaders_eq]
  by_cases hc : t.children = []
  · rw [hc]
    rfl
  · have hsame := visits_leadersOf (t := tableOf (leavesOf t.children)) h.led [] []
    rw [List.append_nil, List.append_nil] at hsame
    rw [table_eq h.toWellFormed hc, hsame, toldFrom_eq_visits h.laid]

/-- **The comment groups of a tree are those of its lexemes.** What is told, then, are comments in
front of tokens, each one once and from left to right. -/
theorem groups_eq_lexemes {text : String} {t : SyntaxTree} (h : PlainlyFormed text t) :
    t.groups text = .ok (Lexeme.groups (t.lexemes text)) ∧
      ∃ told : List (Nat × List Span), Lexeme.groups (t.lexemes text) = told.map (groupOf text) ∧
        (told.flatMap Prod.snd).Sublist (commentsIn (leavesOf t.children)) ∧
        (told.flatMap Prod.snd).Pairwise (fun c d => c.stop ≤ d.start) ∧
        ∀ c ∈ told.flatMap Prod.snd, ∃ s, .token s ∈ leavesOf t.children ∧ c.stop ≤ s.start := by
  have hgroups : Lexeme.groups (t.lexemes text) =
      (toldFrom none [] (leavesOf t.children)).map (groupOf text) := by
    rw [← h.toldFrom_leaves]
    exact lexemeGroups_eq_toldFrom text none [] t.leaves
  have hsublist : ((toldFrom none [] (leavesOf t.children)).flatMap Prod.snd).Sublist
      (commentsIn (leavesOf t.children)) := flatMap_toldFrom_sublist none [] _
  refine ⟨?_, _, hgroups, hsublist, h.laid.comments_apart.sublist hsublist, ?_⟩
  · rw [groups_eq_visits h.toWellFormed, visits_leaders h, hgroups]
  · intro c hc
    -- a comment that is told leads the token that tells it
    obtain ⟨told, htold, hmem⟩ := List.mem_flatMap.mp hc
    rw [toldFrom_eq_visits h.laid] at htold
    obtain ⟨⟨s, hs, rfl⟩, -⟩ := exists_of_mem_visits htold
    exact ⟨s, mem_tokensIn.mp hs, stop_le_of_mem_leading hmem⟩

/-- The comment groups of the sample, where the comment on the row of a token is left out. -/
theorem groups_sampleTree : sampleTree.groups sampleText =
    .ok [⟨1, ["//%ts-expect-error: é (1)"]⟩, ⟨3, ["// c"]⟩] := by
  have hplain : PlainlyFormed sampleText sampleTree :=
    { wellFormed_sampleTree with
      no_root_inside := by decide
      starts_on_row := by
        simp [sampleTree, children, nodesOf, nodes, kind, commentKind, leavesOf, leaves, span] }
  rw [(groups_eq_lexemes hplain).1]
  rfl

end ExpectedDiagnostics.SyntaxTree
