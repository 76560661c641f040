import ExpectedDiagnostics.Proofs.Marker
import ExpectedDiagnostics.Proofs.Run.File
import ExpectedDiagnostics.Proofs.Run.History
import ExpectedDiagnostics.Proofs.SyntaxTree.Groups
import Mathlib.Data.List.Induction
import Mathlib.Data.List.Perm.Subperm

/-!
# No annotation is skipped

The comments that nodes tell are all different, so each marked comment group begins with a marker
at a place of its own, and there are at most as many of them as markers in the text. When a file is
finished there are as many, and so every marker of the text is the one that begins a group.

Main results:

* `visits_apart` — no comment is told twice.
* `markers_accounted` — each marked group has its own marker, and in a finished file each marker has
  its own marked group.
-/

namespace ExpectedDiagnostics.SyntaxTree

/-! ## Comments are told once -/

/-- Leaves end in the comments after their last token, if there is one. -/
theorem exists_last (ls : List Leaf) : ∃ (pre : List Leaf) (last : Option Span) (mid : List Span),
    ls = pre ++ last.toList.map .token ++ mid.map .comment ∧ (last = none → pre = []) := by
  -- from the right: a token at the end is the last one, a comment comes after the last one
  induction ls using List.reverseRecOn with
  | nil => exact ⟨[], none, [], rfl, fun _ => rfl⟩
  | append_singleton ls l ih =>
    cases l with
    | token s =>
      refine ⟨ls, some s, [], ?_, ?_⟩
      · rw [List.map_nil, List.append_nil]
        rfl
      · intro hnone
        exact absurd hnone (by simp)
    | comment c =>
      obtain ⟨pre, last, mid, rfl, hpre⟩ := ih
      refine ⟨pre, last, mid ++ [c], ?_, hpre⟩
      rw [List.map_append, ← List.append_assoc]
      rfl

/-- The leading comments of a token start after the end of every token before it. -/
theorem stop_le_start_of_leading {ls : List Leaf} (h : Laid ls) {a b c : Span}
    (ha : a ∈ tokensIn ls) (hb : b ∈ tokensIn ls) (hab : a.start < b.start)
    (hc : c ∈ (tableOf ls).leading b.start) : a.stop ≤ c.start := by
  -- the leading comments of `b` are in `mid`, and a token before `b` is before `mid`
  obtain ⟨before, after, rfl⟩ := List.append_of_mem (mem_tokensIn.mp hb)
  obtain ⟨pre, last, mid, rfl, hpre⟩ := exists_last before
  change Laid (around pre last mid b after) at h
  change c ∈ (tableOf (around pre last mid b after)).leading b.start at hc
  change a ∈ tokensIn (around pre last mid b after) at ha
  have htokens := h.tokens_apart
  rw [leading_tableOf h hpre] at hc
  rw [tokensIn_around] at ha htokens
  rw [List.pairwise_append, List.pairwise_cons] at htokens
  rcases List.mem_append.mp ha with ha | ha
  · have hsplit : Laid ((pre ++ last.toList.map .token) ++
        (mid.map .comment ++ .token b :: after)) := by
      rw [← List.append_assoc]
      exact h
    have hfirst : .token a ∈ pre ++ last.toList.map Leaf.token := by
      rw [← mem_tokensIn, tokensIn_append, tokensIn_map_token]
      exact ha
    exact hsplit.stop_le_start (b := .comment c) hfirst
      (List.mem_append_left _ (List.mem_map_of_mem (List.mem_of_mem_filter hc)))
  · have hself := h.token_nonempty (s := b) (by rw [tokensIn_around]; simp)
    rcases List.mem_cons.mp ha with rfl | ha
    · exact absurd hab (Nat.lt_irrefl _)
    · have hlater := htokens.2.1.1 a ha
      omega

/-- A node starts where some token does. -/
theorem exists_token_of_mem_leadersOf {ts : List SyntaxTree}
    (h : ∀ n ∈ nodesOf ts, n.kind ≠ commentKind → n.children ≠ [] →
      ∃ s rest, leavesOf n.children = .token s :: rest ∧ s.start = n.span.start)
    {s : Span} (hs : s ∈ leadersOf ts) : ∃ k ∈ tokensIn (leavesOf ts), k.start = s.start := by
  induction ts using forest_induction with
  | nil => exact absurd hs List.not_mem_nil
  | cons kind span children rest ihc ihr =>
    rw [nodesOf_cons] at h
    rw [leavesOf, tokensIn_append]
    rw [leadersOf] at hs
    rcases List.mem_append.mp hs with hs | hs
    · obtain ⟨k, hk, hstart⟩ : ∃ k ∈ tokensIn (leaves (node kind span children)),
          k.start = s.start := by
        rw [leaders] at hs
        rw [leaves]
        by_cases hkind : (kind == commentKind) = true
        · rw [if_pos hkind] at hs
          exact absurd hs List.not_mem_nil
        · rw [if_neg hkind] at hs ⊢
          -- a root is passed over and any other node is visited, then the nodes in it
          have hspan : s = span ∨ s ∈ leadersOf children := by
            split at hs
            · exact .inr hs
            · exact List.mem_cons.mp hs
          by_cases hc : children.isEmpty = true
          · rw [List.isEmpty_iff.mp hc] at hspan
            rw [if_pos hc]
            rcases hspan with rfl | hs
            · exact ⟨s, List.mem_cons_self, rfl⟩
            · exact absurd hs List.not_mem_nil
          · rw [if_neg hc]
            rcases hspan with rfl | hs
            · have hinner : children ≠ [] := fun hnil => hc (by rw [hnil]; rfl)
              obtain ⟨k, tail, hleaves, hstart⟩ :=
                h _ List.mem_cons_self (fun heq => hkind (beq_iff_eq.mpr heq)) hinner
              change leavesOf children = .token k :: tail at hleaves
              exact ⟨k, mem_tokensIn.mpr (hleaves ▸ List.mem_cons_self), hstart⟩
            · exact ihc (fun n hn => h n (by simp [hn])) hs
      exact ⟨k, List.mem_append_left _ hk, hstart⟩
    · obtain ⟨k, hk, hstart⟩ := ihr (fun n hn => h n (by simp [hn])) hs
      exact ⟨k, List.mem_append_right _ hk, hstart⟩

/-- No two nodes tell the same comments. -/
theorem visits_differ (t : Table) (seen : List Nat) (spans : List Span) :
    (visits t seen spans).Pairwise fun v w => v.2 ≠ w.2 := by
  induction spans generalizing seen with
  | nil => exact List.Pairwise.nil
  | cons span spans ih =>
    rcases visits_cons_cases t seen span spans with hsame | ⟨first, others, -, -, hcons⟩
    · rw [hsame]
      exact ih seen
    · rw [hcons]
      refine List.Pairwise.cons ?_ (ih _)
      -- the first comment has been seen when the later nodes are visited
      intro w hw heq
      obtain ⟨-, c, cs, htold, hnew⟩ := exists_of_mem_visits hw
      obtain ⟨rfl, -⟩ := List.cons.inj (heq.trans htold)
      exact hnew List.mem_cons_self

/-- **No comment is told twice.** -/
theorem visits_apart {text : String} {t : SyntaxTree} (h : WellFormed text t) :
    (visits t.table [] t.leaders).Pairwise fun v w =>
      ∀ c ∈ v.2, ∀ d ∈ w.2, c.start ≠ d.start := by
  rw [h.leaders_eq]
  by_cases hchildren : t.children = []
  · rw [hchildren]
    exact List.Pairwise.nil
  · rw [table_eq h hchildren]
    refine (visits_differ _ _ _).imp_of_mem ?_
    intro v w hv hw hne c hc d hd
    obtain ⟨⟨a, ha, rfl⟩, -⟩ := exists_of_mem_visits hv
    obtain ⟨⟨b, hb, rfl⟩, -⟩ := exists_of_mem_visits hw
    obtain ⟨x, hx, hxa⟩ := exists_token_of_mem_leadersOf h.starts_at_token ha
    obtain ⟨y, hy, hyb⟩ := exists_token_of_mem_leadersOf h.starts_at_token hb
    dsimp only at hne hc hd
    rw [← hxa] at hne hc
    rw [← hyb] at hne hd
    have hcx := stop_le_of_mem_leading hc
    have hdy := stop_le_of_mem_leading hd
    have hcc := h.laid.comment_nonempty (mem_comments_of_mem_leading hc)
    have hdd := h.laid.comment_nonempty (mem_comments_of_mem_leading hd)
    have hxx := h.laid.token_nonempty hx
    have hyy := h.laid.token_nonempty hy
    -- the comments of the earlier token end before it does, and those of the later one start after
    -- that; if both nodes start at one token, they would tell the same
    rcases Nat.lt_trichotomy x.start y.start with hlt | heq | hlt
    · have hxd := stop_le_start_of_leading h.laid hx hy hlt hd
      omega
    · exact absurd (congrArg _ heq) hne
    · have hyc := stop_le_start_of_leading h.laid hy hx hlt hc
      omega

/-! ## Marks -/

/-- Tells whether a comment begins with a marker. -/
def isMarkedComment (text : String) (c : Span) : Bool :=
  (Marker.afterMarker? (commentText text c).toList).isSome

/-- The octet at which the first comment that begins with a marker starts, in what is told. -/
def markOf? (text : String) (told : Nat × List Span) : Option Nat :=
  (told.2.find? (isMarkedComment text)).map (·.start)

theorem exists_of_markOf? {text : String} {told : Nat × List Span} {x : Nat}
    (h : markOf? text told = some x) :
    ∃ c ∈ told.2, isMarkedComment text c = true ∧ c.start = x := by
  obtain ⟨c, hc, hx⟩ := Option.map_eq_some_iff.mp h
  exact ⟨c, List.mem_of_find?_eq_some hc, List.find?_some hc, hx⟩

/-- A comment group is marked exactly if it has a mark. -/
theorem isMarked_groupOf (text : String) (told : Nat × List Span) :
    (groupOf text told).isMarked = (markOf? text told).isSome := by
  unfold CommentGroup.isMarked groupOf markOf?
  rw [List.any_map, Option.isSome_map, List.isSome_find?]
  rfl

/-- The marks of a tree. -/
def marks (text : String) (t : SyntaxTree) : List Nat :=
  (visits t.table [] t.leaders).filterMap (markOf? text)

theorem length_marks (text : String) (t : SyntaxTree) :
    (marks text t).length =
      ((visits t.table [] t.leaders).map (groupOf text)).countP CommentGroup.isMarked := by
  unfold marks
  rw [List.length_filterMap_eq_countP, List.countP_map]
  congr 1
  funext told
  exact (isMarked_groupOf text told).symm

theorem nodup_marks {text : String} {t : SyntaxTree} (h : WellFormed text t) :
    (marks text t).Nodup := by
  refine (visits_apart h).filterMap _ ?_
  intro v w hvw x hx y hy hxy
  obtain ⟨c, hc, -, rfl⟩ := exists_of_markOf? hx
  obtain ⟨d, hd, -, rfl⟩ := exists_of_markOf? hy
  exact hvw c hc d hd hxy

/-- At each mark a marker begins. -/
theorem marks_subset {text : String} {t : SyntaxTree} (h : WellFormed text t) :
    marks text t ⊆ (Marker.positions text.toList).map (Utf8.offset text.toList) := by
  intro x hx
  obtain ⟨told, htold, hmark⟩ := List.mem_filterMap.mp hx
  obtain ⟨c, hc, hmarked, rfl⟩ := exists_of_markOf? hmark
  obtain ⟨⟨s, -, rfl⟩, -⟩ := exists_of_mem_visits htold
  obtain ⟨hstart, hstop, hlt⟩ := h.comment_lies (mem_comments_of_mem_leading hc)
  -- the text of the comment begins the text from its own place on, and with it the marker does
  obtain ⟨i, -, hi, hbegins⟩ := Utf8.between_isPrefix hstart hstop hlt
  refine List.mem_map.mpr ⟨i, ?_, hi⟩
  rw [Marker.mem_positions]
  apply Marker.isSome_afterMarker?_of_isPrefix hbegins
  unfold isMarkedComment commentText at hmarked
  rwa [String.toList_ofList] at hmarked

/-- There are at most as many marked groups as markers. -/
theorem length_marks_le {text : String} {t : SyntaxTree} (h : WellFormed text t) :
    (marks text t).length ≤ Marker.count text := by
  -- different places among those of the markers are not more than these
  have hsub := ((nodup_marks h).subperm (marks_subset h)).length_le
  rw [List.length_map, Marker.length_positions] at hsub
  exact hsub

/-- The same mark is not in two places of what is told. -/
theorem not_lt_of_same_mark {text : String} {t : SyntaxTree} (h : WellFormed text t) {k l x : Nat}
    (hk : (visits t.table [] t.leaders)[k]?.bind (markOf? text) = some x)
    (hl : (visits t.table [] t.leaders)[l]?.bind (markOf? text) = some x) : ¬ k < l := by
  intro hlt
  obtain ⟨v, hv, hvx⟩ := Option.bind_eq_some_iff.mp hk
  obtain ⟨w, hw, hwx⟩ := Option.bind_eq_some_iff.mp hl
  obtain ⟨hklen, rfl⟩ := List.getElem?_eq_some_iff.mp hv
  obtain ⟨hllen, rfl⟩ := List.getElem?_eq_some_iff.mp hw
  obtain ⟨c, hc, -, rfl⟩ := exists_of_markOf? hvx
  obtain ⟨d, hd, -, heq⟩ := exists_of_markOf? hwx
  exact List.pairwise_iff_getElem.mp (visits_apart h) k l hklen hllen hlt c hc d hd heq.symm

/-! ## Finished files -/

/-- A file that is finished has as many markers as marked groups, and all of these have been
checked. -/
theorem counts_of_finished {run : Run} {source : Source} {ix : LineIndex}
    {groups : List CommentGroup} {summary : FileSummary}
    (h : (run.checkFile source ix groups).2.2 = .ok (some summary)) :
    Marker.count source.text = groups.countP CommentGroup.isMarked ∧
      summary.counts.checks = groups.countP CommentGroup.isMarked := by
  cases hcurrent : run.current with
  | some other =>
    -- a file cannot be begun while another one is open
    unfold Run.checkFile Run.beginFile at h
    rw [hcurrent] at h
    exact absurd h (by simp)
  | none =>
    rw [Run.checkFile_followedBy run hcurrent] at h
    rcases Run.checkFile_ok_cases h with ⟨hread, hcount, hsummary⟩ | ⟨p, -, -, hnone⟩
    · obtain rfl := Option.some.inj hsummary
      rw [← Run.length_readAll hread]
      refine ⟨hcount, ?_⟩
      exact (Run.checks_countsOf _ _).trans (congrArg _ Run.length_claims)
    · exact absurd hnone (by simp)

/-- **No annotation is skipped.** A well-formed tree has at most as many marked groups as its text
has markers. If the check of the file comes to a summary, all marked groups have been checked, and
each marker of the text begins the first marked comment of exactly one of them. -/
theorem markers_accounted {source : Source} {t : SyntaxTree} (h : WellFormed source.text t) :
    let told := visits t.table [] t.leaders
    let groups := told.map (groupOf source.text)
    t.groups source.text = .ok groups ∧
      groups.countP CommentGroup.isMarked ≤ Marker.count source.text ∧
      ∀ (run : Run) (ix : LineIndex) (summary : FileSummary),
        (run.checkFile source ix groups).2.2 = .ok (some summary) →
          summary.counts.checks = groups.countP CommentGroup.isMarked ∧
          ∀ i, (Marker.afterMarker? (source.text.toList.drop i)).isSome = true →
            ∃! k : Nat, told[k]?.bind (markOf? source.text) =
              some (Utf8.offset source.text.toList i) := by
  refine ⟨groups_eq_visits h, ?_, ?_⟩
  · rw [← length_marks]
    exact length_marks_le h
  · intro run ix summary hsummary
    obtain ⟨hcount, hchecks⟩ := counts_of_finished hsummary
    refine ⟨hchecks, ?_⟩
    intro i hi
    -- the marks are different places of markers, and as many, so they are all of them
    have hperm : (marks source.text t).Perm
        ((Marker.positions source.text.toList).map (Utf8.offset source.text.toList)) := by
      refine ((nodup_marks h).subperm (marks_subset h)).perm_of_length_le ?_
      rw [List.length_map, Marker.length_positions, length_marks, ← hcount]
      exact Nat.le_refl _
    have hmark : Utf8.offset source.text.toList i ∈ marks source.text t := by
      rw [hperm.mem_iff]
      exact List.mem_map_of_mem (Marker.mem_positions.mpr hi)
    obtain ⟨told, htold, hx⟩ := List.mem_filterMap.mp hmark
    obtain ⟨k, hk⟩ := List.getElem?_of_mem htold
    have hkx : (visits t.table [] t.leaders)[k]?.bind (markOf? source.text) =
        some (Utf8.offset source.text.toList i) := by
      rw [hk]
      exact hx
    refine ⟨k, hkx, ?_⟩
    intro l hl
    have hle := not_lt_of_same_mark h hkx hl
    have hge := not_lt_of_same_mark h hl hkx
    omega

/-- The only marker of the sample begins its only annotation, once the file is finished. -/
theorem markers_sampleTree :
    ∃! k : Nat, (visits sampleTree.table [] sampleTree.leaders)[k]?.bind (markOf? sampleText) =
      some 0 := by
  have htold : visits sampleTree.table [] sampleTree.leaders =
      [(1, [⟨0, 26, 0, 0⟩]), (3, [⟨34, 38, 2, 2⟩])] := by
    rw [table_eq wellFormed_sampleTree (by simp [sampleTree, children])]
    rfl
  have hsource : WellFormed (⟨.ofString "a.ts", sampleText⟩ : Source).text sampleTree :=
    wellFormed_sampleTree
  obtain ⟨-, -, hfinished⟩ := markers_accounted hsource
  obtain ⟨summary, hsummary⟩ : ∃ summary, ((Run.start false).checkFile
      ⟨.ofString "a.ts", sampleText⟩ .empty ((visits sampleTree.table [] sampleTree.leaders).map
        (groupOf sampleText))).2.2 = .ok (some summary) := by
    rw [htold]
    exact ⟨_, rfl⟩
  exact (hfinished (.start false) .empty summary hsummary).2 0 rfl

end ExpectedDiagnostics.SyntaxTree
