import ExpectedDiagnostics.Proofs.SyntaxTree.Leaves

/-!
# The comment groups of a syntax tree

The nodes of a tree are visited from the outside to the inside, and a node tells the comments that
lead it unless a node before has told them (`visits`). For a token these are the comments since the
last token, less those on its row. So if it were the tokens that are visited, from left to right,
each one would tell its leading comments (`toldFrom`).

Main results:

* `groups_eq_visits` — the comment groups are the texts of what is told, which can all be read.
* `leading_tableOf` — the leading comments of a token: those since the last token, less those on its
  row.
* `visits_tokensIn` — what the tokens tell.
-/

namespace ExpectedDiagnostics.SyntaxTree

/-! ## What is told -/

/-- What the visited nodes tell, once these first comments have been seen: the row on which a node
starts, and its leading comments. -/
def visits (t : Table) (seen : List Nat) : List Span → List (Nat × List Span)
  | [] => []
  | span :: spans =>
    match t.leading span.start with
    | [] => visits t seen spans
    | first :: others =>
      if seen.contains first.start then visits t seen spans
      else (span.startRow, first :: others) :: visits t (first.start :: seen) spans

section

variable {t : Table} {seen : List Nat} {span first : Span} {others spans : List Span}

theorem visits_cons_nil (h : t.leading span.start = []) :
    visits t seen (span :: spans) = visits t seen spans := by
  rw [visits, h]

theorem visits_cons_seen (h : t.leading span.start = first :: others)
    (hseen : seen.contains first.start = true) :
    visits t seen (span :: spans) = visits t seen spans := by
  rw [visits, h]
  exact if_pos hseen

theorem visits_cons_new (h : t.leading span.start = first :: others)
    (hseen : ¬ seen.contains first.start = true) :
    visits t seen (span :: spans) =
      (span.startRow, first :: others) :: visits t (first.start :: seen) spans := by
  rw [visits, h]
  exact if_neg hseen

end

/-- A node tells nothing, or it tells leading comments that have not been seen. -/
theorem visits_cons_cases (t : Table) (seen : List Nat) (span : Span) (spans : List Span) :
    visits t seen (span :: spans) = visits t seen spans ∨
      ∃ first others, t.leading span.start = first :: others ∧ first.start ∉ seen ∧
        visits t seen (span :: spans) =
          (span.startRow, first :: others) :: visits t (first.start :: seen) spans := by
  cases hleading : t.leading span.start with
  | nil => exact .inl (visits_cons_nil hleading)
  | cons first others =>
    by_cases hseen : seen.contains first.start = true
    · exact .inl (visits_cons_seen hleading hseen)
    · exact .inr ⟨first, others, rfl, by simpa using hseen, visits_cons_new hleading hseen⟩

/-- What is told are the leading comments of a visited node, the first of which has not been
seen. -/
theorem exists_of_mem_visits {t : Table} {seen : List Nat} {spans : List Span}
    {told : Nat × List Span} (h : told ∈ visits t seen spans) :
    (∃ s ∈ spans, told = (s.startRow, t.leading s.start)) ∧
      ∃ first others, told.2 = first :: others ∧ first.start ∉ seen := by
  induction spans generalizing seen with
  | nil => exact absurd h List.not_mem_nil
  | cons span spans ih =>
    rcases visits_cons_cases t seen span spans with hsame | ⟨first, others, hleading, hnew, hcons⟩
    · rw [hsame] at h
      obtain ⟨⟨s, hs, htold⟩, hfirst⟩ := ih h
      exact ⟨⟨s, List.mem_cons_of_mem _ hs, htold⟩, hfirst⟩
    -- it is told by this node, or by a later one for which even more comments have been seen
    · rw [hcons] at h
      rcases List.mem_cons.mp h with rfl | htail
      · exact ⟨⟨span, List.mem_cons_self, by rw [hleading]⟩, first, others, rfl, hnew⟩
      · obtain ⟨⟨s, hs, htold⟩, c, cs, hcs, hc⟩ := ih htail
        exact ⟨⟨s, List.mem_cons_of_mem _ hs, htold⟩, c, cs, hcs,
          fun hmem => hc (List.mem_cons_of_mem _ hmem)⟩

/-- The text of a comment, by the characters that begin in its range. -/
def commentText (text : String) (c : Span) : String :=
  .ofList (Utf8.between text.toList c.start c.stop)

def groupOf (text : String) (told : Nat × List Span) : CommentGroup :=
  ⟨told.1, told.2.map (commentText text)⟩

theorem mem_comments_of_mem_leading {t : Table} {place : Nat} {c : Span}
    (h : c ∈ t.leading place) : c ∈ t.comments := by
  have hbetween := List.mem_of_mem_filter h
  exact (List.dropWhile_sublist _).subset ((List.takeWhile_sublist _).subset hbetween)

/-- Leading comments end before the place that they lead. -/
theorem stop_le_of_mem_leading {t : Table} {place : Nat} {c : Span}
    (h : c ∈ t.leading place) : c.stop ≤ place := by
  have hkept := List.of_mem_filter h
  rw [Bool.and_eq_true, decide_eq_true_iff] at hkept
  exact hkept.1

/-- Reading texts one after the other succeeds if each one can be read. -/
private theorem mapM_eq_ok {α β ε : Type} {f : α → Except ε β} {g : α → β} {xs : List α}
    (h : ∀ x ∈ xs, f x = .ok (g x)) : xs.mapM f = .ok (xs.map g) := by
  induction xs with
  | nil => rfl
  | cons x xs ih =>
    rw [List.mapM_cons, h x List.mem_cons_self, ih fun y hy => h y (List.mem_cons_of_mem _ hy)]
    rfl

/-- The comment groups of nodes are the texts of what the nodes tell. -/
theorem groupsFrom_eq_visits {text : String} {t : Table} (seen : List Nat) (spans : List Span)
    (h : ∀ c ∈ t.comments,
      sliceText (Utf8.encode text.toList) c = .ok (commentText text c)) :
    groupsFrom (Utf8.encode text.toList) t seen spans =
      .ok ((visits t seen spans).map (groupOf text)) := by
  induction spans generalizing seen with
  | nil => rfl
  | cons span spans ih =>
    rw [groupsFrom]
    cases hleading : t.leading span.start with
    | nil =>
      rw [visits_cons_nil hleading]
      exact ih seen
    | cons first others =>
      dsimp only
      by_cases hseen : seen.contains first.start = true
      · rw [if_pos hseen, visits_cons_seen hleading hseen]
        exact ih seen
      -- all leading comments are in the table, so each one can be read
      · have hall : ∀ c ∈ first :: others,
            sliceText (Utf8.encode text.toList) c = .ok (commentText text c) := by
          intro c hc
          rw [← hleading] at hc
          exact h c (mem_comments_of_mem_leading hc)
        rw [if_neg hseen, visits_cons_new hleading hseen, mapM_eq_ok hall, ih]
        rfl

/-- The comment groups of a well-formed tree are the texts of what is told. -/
theorem groups_eq_visits {text : String} {t : SyntaxTree} (h : WellFormed text t) :
    t.groups text = .ok ((visits t.table [] t.leaders).map (groupOf text)) := by
  apply groupsFrom_eq_visits
  intro c hc
  obtain ⟨hstart, hstop, hlt⟩ := h.comment_lies hc
  -- a comment begins and ends where characters do
  unfold sliceText
  rw [Utf8.decode_range hstart hstop hlt]
  rfl

/-! ## Leading comments -/

/-- Where a list splits into a piece all of which is taken and a piece none of which is, that is
where taking stops. -/
private theorem takeWhile_append_split {α : Type} {p : α → Bool} {xs ys : List α}
    (hxs : ∀ x ∈ xs, p x = true) (hys : ∀ y ∈ ys, p y = false) : (xs ++ ys).takeWhile p = xs := by
  rw [List.takeWhile_append_of_pos hxs]
  cases ys with
  | nil => exact List.append_nil xs
  | cons y ys => rw [List.takeWhile_cons, hys y List.mem_cons_self, if_neg Bool.false_ne_true,
      List.append_nil]

private theorem dropWhile_append_split {α : Type} {p : α → Bool} {xs ys : List α}
    (hxs : ∀ x ∈ xs, p x = true) (hys : ∀ y ∈ ys, p y = false) : (xs ++ ys).dropWhile p = ys := by
  rw [List.dropWhile_append_of_pos hxs]
  cases ys with
  | nil => rfl
  | cons y ys => rw [List.dropWhile_cons, hys y List.mem_cons_self, if_neg Bool.false_ne_true]

/-- Leaves with a token among them: the ones up to the last token before it, this last token, the
comments in between, the token, and the ones after it. -/
def around (pre : List Leaf) (last : Option Span) (mid : List Span) (s : Span)
    (after : List Leaf) : List Leaf :=
  (pre ++ last.toList.map .token ++ mid.map .comment) ++ .token s :: after

variable {pre after : List Leaf} {last : Option Span} {mid : List Span} {s : Span}

theorem tokensIn_around :
    tokensIn (around pre last mid s after) =
      (tokensIn pre ++ last.toList) ++ s :: tokensIn after := by
  unfold around
  rw [tokensIn_append, tokensIn_append, tokensIn_append, tokensIn_map_token, tokensIn_map_comment,
    List.append_nil]
  rfl

theorem commentsIn_around :
    commentsIn (around pre last mid s after) = commentsIn pre ++ (mid ++ commentsIn after) := by
  unfold around
  rw [commentsIn_append, commentsIn_append, commentsIn_append, commentsIn_map_token,
    commentsIn_map_comment, List.append_nil, List.append_assoc]
  rfl

/-- The last token that ends before a token is the one before it. -/
theorem lastEnd?_tableOf (h : Laid (around pre last mid s after)) (hpre : last = none → pre = []) :
    (tableOf (around pre last mid s after)).lastEnd? s.start =
      last.map fun p => (p.stop, p.stopRow) := by
  have hself : s.start < s.stop := h.nonempty (.token s) (by simp [around])
  have htokens := h.tokens_apart
  rw [tokensIn_around, List.pairwise_append, List.pairwise_cons] at htokens
  obtain ⟨-, ⟨hafter, -⟩, hbefore⟩ := htokens
  unfold Table.lastEnd? tableOf
  dsimp only
  -- the tokens before `s` end at its start at the latest, and `s` and those after it do not
  rw [tokensIn_around, List.map_append, takeWhile_append_split]
  · cases last with
    | none =>
      rw [hpre rfl]
      rfl
    | some p => simp
  · intro e he
    obtain ⟨p, hp, rfl⟩ := List.mem_map.mp he
    exact decide_eq_true (hbefore p hp s List.mem_cons_self)
  · intro e he
    obtain ⟨p, hp, rfl⟩ := List.mem_map.mp he
    refine decide_eq_false ?_
    -- `s` itself is not empty, and so no later token ends before `s` starts
    rcases List.mem_cons.mp hp with rfl | hp
    · exact Nat.not_le.mpr hself
    · have hps := hafter p hp
      have hpp := h.token_nonempty (s := p) (by rw [tokensIn_around]; simp [hp])
      omega

/-- **The leading comments of a token** are those since the last token, less those on the row on
which that one ends. -/
theorem leading_tableOf (h : Laid (around pre last mid s after)) (hpre : last = none → pre = []) :
    (tableOf (around pre last mid s after)).leading s.start =
      mid.filter fun c => some c.startRow != last.map (·.stopRow) := by
  have hself : s.start < s.stop := h.nonempty (.token s) (by simp [around])
  have hapart := h.apart
  unfold around at hapart
  rw [List.pairwise_append, List.pairwise_append, List.pairwise_append,
    List.pairwise_cons] at hapart
  obtain ⟨⟨⟨-, -, hpreLast⟩, -, hlastMid⟩, ⟨htokenAfter, -⟩, hbefore⟩ := hapart
  have hmid : ∀ c ∈ mid, c.stop ≤ s.start := fun c hc =>
    hbefore (.comment c) (by simp [hc]) (.token s) List.mem_cons_self
  have hafter : ∀ c ∈ commentsIn after, s.stop ≤ c.start := fun c hc =>
    htokenAfter (.comment c) (mem_commentsIn.mp hc)
  -- the last token splits the comments before the token
  have hborder : ∀ c ∈ commentsIn pre,
      c.start < ((last.map fun p => (p.stop, p.stopRow)).map Prod.fst).getD 0 := by
    intro c hc
    cases last with
    | none =>
      rw [hpre rfl] at hc
      exact absurd hc List.not_mem_nil
    | some p =>
      have hcp : c.stop ≤ p.start :=
        hpreLast (.comment c) (mem_commentsIn.mp hc) (.token p) List.mem_cons_self
      have hcc := h.comment_nonempty (s := c) (by rw [commentsIn_around]; simp [hc])
      have hpp := h.token_nonempty (s := p) (by rw [tokensIn_around]; simp)
      simp only [Option.map_some, Option.getD_some]
      omega
  have hrest : ∀ c ∈ mid ++ commentsIn after,
      ((last.map fun p => (p.stop, p.stopRow)).map Prod.fst).getD 0 ≤ c.start := by
    intro c hc
    cases last with
    | none => exact Nat.zero_le _
    | some p =>
      rcases List.mem_append.mp hc with hc | hc
      · exact hlastMid (.token p) (by simp) (.comment c) (List.mem_map_of_mem hc)
      · exact hbefore (.token p) (by simp) (.comment c)
          (List.mem_cons_of_mem _ (mem_commentsIn.mp hc))
  unfold Table.leading
  dsimp only
  rw [lastEnd?_tableOf h hpre]
  unfold tableOf
  dsimp only
  -- dropping ends at the last token, and taking at the token itself: what is in between is left
  rw [commentsIn_around, dropWhile_append_split, takeWhile_append_split]
  · apply List.filter_congr
    intro c hc
    rw [decide_eq_true (hmid c hc), Bool.true_and, Option.map_map]
    rfl
  · intro c hc
    have hstop := hmid c hc
    have hne := h.comment_nonempty (s := c) (by rw [commentsIn_around]; simp [hc])
    exact decide_eq_true (by omega)
  · intro c hc
    have hstart := hafter c hc
    exact decide_eq_false (by omega)
  · intro c hc
    exact decide_eq_true (hborder c hc)
  · intro c hc
    exact decide_eq_false (Nat.not_lt.mpr (hrest c hc))

/-! ## Tokens tell -/

/-- What is told in front of the tokens among leaves, where this was the last token and these
comments have been met since. -/
def toldFrom (last : Option Span) (mid : List Span) : List Leaf → List (Nat × List Span)
  | [] => []
  | .comment c :: ls => toldFrom last (mid ++ [c]) ls
  | .token s :: ls =>
    match mid.filter fun c => some c.startRow != last.map (·.stopRow) with
    | [] => toldFrom (some s) [] ls
    | first :: others => (s.startRow, first :: others) :: toldFrom (some s) [] ls

/-- If tokens are visited from left to right, each one tells its leading comments: they have not
been seen before, because they start after everything that has. -/
theorem visits_tokensIn {t : Table} {ls : List Leaf} {seen : List Nat}
    (h : Laid (pre ++ last.toList.map .token ++ mid.map .comment ++ ls))
    (ht : t = tableOf (pre ++ last.toList.map .token ++ mid.map .comment ++ ls))
    (hpre : last = none → pre = [])
    (hseen : ∀ x ∈ seen, (∀ c ∈ mid, x < c.start) ∧ ∀ l ∈ ls, x < l.span.start) :
    visits t seen (tokensIn ls) = toldFrom last mid ls := by
  -- the leaves that have been passed are kept as `pre`, `last` and `mid`: a comment is added to
  -- `mid`, and a token becomes `last` with no comments behind it
  induction ls generalizing pre last mid seen with
  | nil => rfl
  | cons l ls ih =>
    cases l with
    | comment c =>
      have hjoin : pre ++ last.toList.map .token ++ (mid ++ [c]).map .comment ++ ls =
          pre ++ last.toList.map .token ++ mid.map .comment ++ .comment c :: ls := by simp
      have htokens : tokensIn (.comment c :: ls) = tokensIn ls := rfl
      rw [htokens, toldFrom]
      apply ih (by rwa [hjoin]) (by rwa [hjoin]) hpre
      intro x hx
      obtain ⟨hmid, hls⟩ := hseen x hx
      refine ⟨?_, fun l hl => hls l (List.mem_cons_of_mem _ hl)⟩
      intro d hd
      rcases List.mem_append.mp hd with hd | hd
      · exact hmid d hd
      · rw [List.mem_singleton.mp hd]
        exact hls (.comment c) List.mem_cons_self
    | token s =>
      have hjoin : (pre ++ last.toList.map .token ++ mid.map .comment) ++
          (some s).toList.map .token ++ ([] : List Span).map .comment ++ ls =
          pre ++ last.toList.map .token ++ mid.map .comment ++ .token s :: ls := by simp
      have htokens : tokensIn (.token s :: ls) = s :: tokensIn ls := rfl
      have hleading : t.leading s.start = mid.filter fun c =>
          some c.startRow != last.map (·.stopRow) := by
        rw [ht]
        exact leading_tableOf h hpre
      rw [htokens, toldFrom]
      cases hfilter : mid.filter fun c => some c.startRow != last.map (·.stopRow) with
      | nil =>
        rw [visits_cons_nil (hleading.trans hfilter)]
        apply ih (by rwa [hjoin]) (by rwa [hjoin]) (by simp)
        intro x hx
        exact ⟨by simp, fun l hl => (hseen x hx).2 l (List.mem_cons_of_mem _ hl)⟩
      | cons first others =>
        have hfirst : first ∈ mid := by
          apply List.mem_of_mem_filter (p := fun c => some c.startRow != last.map (·.stopRow))
          rw [hfilter]
          exact List.mem_cons_self
        -- everything that has been seen starts before the comments of `mid`
        have hnew : ¬ seen.contains first.start = true := by
          intro hcontains
          exact Nat.lt_irrefl _ ((hseen _ (by simpa using hcontains)).1 first hfirst)
        rw [visits_cons_new (hleading.trans hfilter) hnew,
          ih (by rwa [hjoin]) (by rwa [hjoin]) (by simp)]
        intro x hx
        refine ⟨by simp, ?_⟩
        intro l hl
        rcases List.mem_cons.mp hx with rfl | hx
        -- the comment just told ends before the leaves after the token start
        · have hlt := h.nonempty (.comment first) (by simp [hfirst])
          have hle := h.stop_le_start (a := .comment first) (b := l) (by simp [hfirst])
            (List.mem_cons_of_mem _ hl)
          exact Nat.lt_of_lt_of_le hlt hle
        · exact (hseen x hx).2 l (List.mem_cons_of_mem _ hl)

/-- What tokens tell are comments among the leaves, from left to right. -/
theorem flatMap_toldFrom_sublist (last : Option Span) (mid : List Span) (ls : List Leaf) :
    ((toldFrom last mid ls).flatMap Prod.snd).Sublist (mid ++ commentsIn ls) := by
  induction ls generalizing last mid with
  | nil => exact List.nil_sublist _
  | cons l ls ih =>
    cases l with
    | comment c =>
      rw [toldFrom]
      -- the comment joins those that the next token may tell
      have hjoin : mid ++ commentsIn (.comment c :: ls) = mid ++ [c] ++ commentsIn ls := by
        rw [List.append_assoc]
        rfl
      rw [hjoin]
      exact ih last (mid ++ [c])
    | token s =>
      have hrest := ih (some s) []
      rw [toldFrom]
      cases hfilter : mid.filter fun c => some c.startRow != last.map (·.stopRow) with
      | nil => exact hrest.trans (List.sublist_append_right _ _)
      | cons first others =>
        have hmid : (first :: others).Sublist mid := by
          rw [← hfilter]
          exact List.filter_sublist
        exact hmid.append hrest

end ExpectedDiagnostics.SyntaxTree
