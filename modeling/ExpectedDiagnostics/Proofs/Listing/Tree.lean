import ExpectedDiagnostics.Proofs.Listing.Blocks
import ExpectedDiagnostics.Proofs.Message
import Mathlib.Data.List.Basic

/-!
# The tree of a block

Which line of a block explains which: the parent of a line is the last line before it that is less
far to the right, and the children of a line stand in the order of the lines. This is told by the
numbers of the lines in the whole block. The reader looks at a piece of the block at a time: what is
deeper than the first line of a piece explains that line, and the rest stands beside it. Both come
to the same tree, whatever the indentation is, because nothing in front of a piece and nothing
behind it is the parent or a child of a line in it, but for the one line that the whole piece
explains.

Main results:

* `forest_eq` — a piece of a block makes the trees of the children of one line.
* `linksOf_forest` — the trees have the lines in order.
* `read_block` — the diagnostic of a block, wherever the block stands in a listing.
-/

namespace ExpectedDiagnostics.Listing

variable {lines front piece back : List (Nat × List Char)} {p i j k : Nat}

/-! ## Parents and children -/

/-- The depth of the line with a number, and its text. -/
def depthAt (lines : List (Nat × List Char)) (i : Nat) : Nat :=
  (lines.getD i (0, [])).1

def textAt (lines : List (Nat × List Char)) (i : Nat) : List Char :=
  (lines.getD i (0, [])).2

/-- The parent of a line is the last line before it that is less far to the right. -/
def IsParent (lines : List (Nat × List Char)) (i j : Nat) : Prop :=
  i < j ∧ depthAt lines i < depthAt lines j ∧ ∀ k < j, i < k → depthAt lines j ≤ depthAt lines k

instance (lines : List (Nat × List Char)) (i j : Nat) : Decidable (IsParent lines i j) :=
  inferInstanceAs (Decidable (_ ∧ _ ∧ ∀ k < j, i < k → depthAt lines j ≤ depthAt lines k))

/-- The children of a line, in the order of the lines. -/
def childrenOf (lines : List (Nat × List Char)) (i : Nat) : List Nat :=
  (List.range lines.length).filter (IsParent lines i ·)

example : childrenOf [(0, []), (2, []), (1, []), (3, []), (1, [])] 0 = [1, 2, 4] := by decide

theorem lt_of_mem_childrenOf (h : j ∈ childrenOf lines i) : i < j ∧ j < lines.length := by
  obtain ⟨hlength, hparent⟩ := List.mem_filter.mp h
  exact ⟨(of_decide_eq_true hparent).1, List.mem_range.mp hlength⟩

/-- The tree below a line. -/
def treeOf (lines : List (Nat × List Char)) (i : Nat) : Message :=
  .chain (.ofList (textAt lines i)) ((childrenOf lines i).attach.map fun j => treeOf lines j.1)
termination_by lines.length - i
decreasing_by
  obtain ⟨hlt, hlength⟩ := lt_of_mem_childrenOf j.2
  omega

theorem treeOf_eq (lines : List (Nat × List Char)) (i : Nat) :
    treeOf lines i =
      .chain (.ofList (textAt lines i)) ((childrenOf lines i).map (treeOf lines)) := by
  rw [treeOf]
  simp

/-! ## Pieces of a block -/

theorem getD_front {e : Nat × List Char} (hlines : lines = front ++ e :: back) :
    lines.getD front.length (0, []) = e := by
  rw [hlines]
  simp

theorem depthAt_front {e : Nat × List Char} (hlines : lines = front ++ e :: back) :
    depthAt lines front.length = e.1 :=
  congrArg Prod.fst (getD_front hlines)

theorem exists_depthAt (hfront : front.length ≤ k) (hpiece : k < front.length + piece.length) :
    ∃ e ∈ piece, depthAt (front ++ (piece ++ back)) k = e.1 := by
  refine ⟨piece[k - front.length], List.getElem_mem _, ?_⟩
  unfold depthAt
  rw [List.getD_eq_getElem?_getD, List.getElem?_append_right hfront,
    List.getElem?_append_left (by omega), List.getElem?_eq_getElem (by omega), Option.getD_some]

/-- From a line on that is no deeper than an earlier one, no line is a child of the earlier one. -/
theorem not_isParent_of_le (hp : p < k) (hk : depthAt lines k ≤ depthAt lines p) (hj : k ≤ j) :
    ¬ IsParent lines p j := by
  rintro ⟨-, hdeeper, hbetween⟩
  rcases Nat.eq_or_lt_of_le hj with rfl | hlt
  · omega
  · have hle := hbetween k hlt hp
    omega

/-- The children of a line stand in the piece right below it, up to the first line that is no
deeper. -/
theorem childrenOf_eq (hlines : lines = front ++ (piece ++ back)) (hp : front.length = p + 1)
    (hback : ∀ e ∈ back.head?, e.1 ≤ depthAt lines p) :
    childrenOf lines p =
      (List.range' front.length piece.length).filter (IsParent lines p ·) := by
  have hlength : lines.length = front.length + (piece.length + back.length) := by
    rw [hlines, List.length_append, List.length_append]
  have hbefore : (List.range' 0 front.length).filter (IsParent lines p ·) = [] := by
    rw [List.filter_eq_nil_iff]
    intro j hj hparent
    rw [List.mem_range'_1] at hj
    have hlt := (of_decide_eq_true hparent).1
    omega
  -- the first line behind the piece is no deeper than the parent
  have hbehind : (List.range' (front.length + piece.length) back.length).filter
      (IsParent lines p ·) = [] := by
    rw [List.filter_eq_nil_iff]
    intro j hj hparent
    rw [List.mem_range'_1] at hj
    cases back with
    | nil =>
      rw [List.length_nil] at hj
      omega
    | cons e back =>
      have hdepth : depthAt lines (front.length + piece.length) = e.1 := by
        rw [← List.append_assoc] at hlines
        rw [← List.length_append]
        exact depthAt_front hlines
      refine not_isParent_of_le (by omega) ?_ hj.1 (of_decide_eq_true hparent)
      rw [hdepth]
      exact hback e rfl
  rw [childrenOf, hlength, List.range_eq_range', ← List.range'_append_1, ← List.range'_append_1,
    List.filter_append, List.filter_append, Nat.zero_add, hbefore, hbehind, List.nil_append,
    List.append_nil]

/-- If no line between is less deep than the first one of a piece, none is up to the end of what is
deeper than it. -/
theorem le_depthAt {e : Nat × List Char} {inner : List (Nat × List Char)}
    (hlines : lines = front ++ (e :: inner ++ back))
    (hbetween : ∀ k < front.length, p < k → e.1 ≤ depthAt lines k)
    (hinner : ∀ x ∈ inner, e.1 < x.1) (hk : k < front.length + (e :: inner).length) (hp : p < k) :
    e.1 ≤ depthAt lines k := by
  by_cases hfront : k < front.length
  · exact hbetween k hfront hp
  · obtain ⟨x, hx, hdepth⟩ := @exists_depthAt front (e :: inner) back k (Nat.le_of_not_lt hfront) hk
    rw [hlines, hdepth]
    rcases List.mem_cons.mp hx with rfl | hx
    · exact Nat.le_refl _
    · exact Nat.le_of_lt (hinner x hx)

/-- Of a line and those deeper ones that follow it, only the line itself is a child of the line that
they all are deeper than. -/
theorem filter_isParent {e : Nat × List Char} {inner : List (Nat × List Char)}
    (hlines : lines = front ++ (e :: inner ++ back)) (hp : p < front.length)
    (hdeeper : depthAt lines p < e.1) (hbetween : ∀ k < front.length, p < k → e.1 ≤ depthAt lines k)
    (hinner : ∀ x ∈ inner, e.1 < x.1) :
    (List.range' front.length (e :: inner).length).filter (IsParent lines p ·) =
      [front.length] := by
  have hhead := depthAt_front hlines
  have hchild : IsParent lines p front.length := by
    rw [← hhead] at hdeeper hbetween
    exact ⟨hp, hdeeper, hbetween⟩
  -- the line itself stands between the parent and what is deeper
  have hnone : (List.range' (front.length + 1) inner.length).filter (IsParent lines p ·) = [] := by
    rw [List.filter_eq_nil_iff]
    intro j hj hparent
    rw [List.mem_range'_1] at hj
    have hle := (of_decide_eq_true hparent).2.2 front.length (by omega) hp
    obtain ⟨x, hx, hdepth⟩ := @exists_depthAt (front ++ [e]) inner back j (by simp; omega)
      (by simp; omega)
    rw [List.append_assoc, List.singleton_append, ← List.cons_append, ← hlines] at hdepth
    have hlt := hinner x hx
    omega
  rw [List.length_cons, List.range'_succ, List.filter_cons, if_pos (decide_eq_true hchild), hnone]

/-- The tree below a line is made of what follows it, up to the first line that is no deeper. -/
theorem treeOf_front {e : Nat × List Char} {inner : List (Nat × List Char)}
    (hlines : lines = front ++ (e :: inner ++ back)) (hback : ∀ x ∈ back.head?, x.1 ≤ e.1) :
    treeOf lines front.length = .chain (.ofList e.2)
      (((List.range' (front ++ [e]).length inner.length).filter
        (IsParent lines front.length ·)).map (treeOf lines)) := by
  have hsteps : lines = front ++ [e] ++ (inner ++ back) := by
    rw [hlines, List.append_assoc]
    rfl
  have htext : textAt lines front.length = e.2 := congrArg Prod.snd (getD_front hlines)
  have hdepth : depthAt lines front.length = e.1 := depthAt_front hlines
  rw [← hdepth] at hback
  rw [treeOf_eq, htext, childrenOf_eq hsteps List.length_append hback]

/-- **A piece of a block makes the trees of the children of one line**: of the line in front of it
that all its lines are deeper than, while no line between is less deep than the first one of the
piece. -/
theorem forest_eq (hlines : lines = front ++ (piece ++ back)) (hp : p < front.length)
    (hdeeper : ∀ e ∈ piece, depthAt lines p < e.1)
    (hbetween : ∀ e ∈ piece.head?, ∀ k < front.length, p < k → e.1 ≤ depthAt lines k)
    (hback : ∀ e ∈ back.head?, e.1 ≤ depthAt lines p) :
    forest piece =
      ((List.range' front.length piece.length).filter (IsParent lines p ·)).map (treeOf lines) := by
  -- front and back take up what the piece loses, so that the block stays the same
  induction piece using forest.induct generalizing front back p with
  | case1 => rw [forest]; rfl
  | case2 depth text rest ihinner ihouter =>
    have hsplit : rest = rest.takeWhile (depth < ·.1) ++ rest.dropWhile (depth < ·.1) :=
      List.takeWhile_append_dropWhile.symm
    have hinner : ∀ e ∈ rest.takeWhile (depth < ·.1), depth < e.1 := by
      intro e he
      simpa using List.mem_takeWhile_imp he
    have houter : ∀ e ∈ (rest.dropWhile (depth < ·.1)).head?, e.1 ≤ depth := by
      intro e he
      have hstop := List.head?_dropWhile_not (depth < ·.1) rest
      rw [he] at hstop
      exact Nat.le_of_not_lt (of_decide_eq_false hstop)
    rw [forest]
    generalize rest.takeWhile _ = inner, rest.dropWhile _ = outer at *
    subst hsplit
    have hparent := hdeeper _ List.mem_cons_self
    have hbetween := hbetween (depth, text) rfl
    have hlines : lines = front ++ ((depth, text) :: inner ++ (outer ++ back)) := by
      rw [hlines, List.cons_append, List.cons_append, List.append_assoc]
    have hdepth : depthAt lines front.length = depth := depthAt_front hlines
    -- what is deeper than the first line makes the tree of that line
    have hnode : treeOf lines front.length = .chain (.ofList text) (forest inner) := by
      have hstop : ∀ e ∈ (outer ++ back).head?, e.1 ≤ depth := by
        intro e he
        rw [List.head?_append, Option.mem_def, Option.or_eq_some_iff] at he
        rcases he with he | ⟨-, he⟩
        · exact houter e he
        · exact Nat.le_of_lt (Nat.lt_of_le_of_lt (hback e he) hparent)
      have hsteps : lines = front ++ [(depth, text)] ++ (inner ++ (outer ++ back)) := by
        rw [hlines, List.append_assoc]
        rfl
      have hlength : (front ++ [(depth, text)]).length = front.length + 1 := List.length_append
      have hforest := @ihinner _ _ front.length hsteps (by omega) (by rwa [hdepth]) (by omega)
        (by rwa [hdepth])
      rw [treeOf_front hlines hstop, ← hforest]
    -- what is not stands beside it
    have hbeside : forest outer = ((List.range' (front.length + (inner.length + 1))
        outer.length).filter (IsParent lines p ·)).map (treeOf lines) := by
      have hsteps : lines = front ++ (depth, text) :: inner ++ (outer ++ back) := by
        rw [hlines, List.append_assoc]
      have hlength : (front ++ (depth, text) :: inner).length =
          front.length + (inner.length + 1) := List.length_append
      rw [← hlength]
      refine ihouter hsteps (by omega) (fun e he => hdeeper e (by simp [he])) ?_ hback
      intro e he k hk hpk
      rw [List.length_append] at hk
      exact Nat.le_trans (houter e he) (le_depthAt hlines hbetween hinner hk hpk)
    have hchildren := filter_isParent hlines hp hparent hbetween hinner
    rw [List.length_cons] at hchildren
    rw [List.length_cons, List.length_append, Nat.add_right_comm, ← List.range'_append_1,
      List.filter_append, hchildren, List.map_append, ← hbeside, List.map_singleton, hnode,
      List.singleton_append]

/-- The children of the header of a block make the trees below it. -/
theorem forest_eq_children {text : List Char} {es : List (Nat × List Char)}
    (hes : ∀ e ∈ es, 0 < e.1) :
    forest es = (childrenOf ((0, text) :: es) 0).map (treeOf ((0, text) :: es)) := by
  have hlines : (0, text) :: es = [(0, text)] ++ (es ++ []) := by simp
  have hback : ∀ e ∈ ([] : List (Nat × List Char)).head?, e.1 ≤ depthAt ((0, text) :: es) 0 :=
    fun e he => nomatch he
  rw [@childrenOf_eq _ [(0, text)] es [] 0 hlines rfl hback]
  exact forest_eq hlines Nat.one_pos hes (by simp) hback

/-! ## Messages -/

/-- The trees have the lines in order, each as a line of its own. -/
theorem linksOf_forest (es : List (Nat × List Char)) :
    Message.linksOf (forest es) = es.map fun e => ⟨true, e.2⟩ := by
  induction es using forest.induct with
  | case1 =>
    rw [forest]
    rfl
  | case2 depth text rest ihinner ihouter =>
    have hsplit : rest.takeWhile (depth < ·.1) ++ rest.dropWhile (depth < ·.1) = rest :=
      List.takeWhile_append_dropWhile
    rw [forest, Message.linksOf, Message.links, ihinner, ihouter, String.toList_ofList,
      List.cons_append, ← List.map_append, hsplit]
    rfl

theorem heading_messageOf (text : List Char) (next : List Message) :
    (messageOf text next).heading = text := by
  cases next with
  | nil => exact String.toList_ofList
  | cons m ms => exact String.toList_ofList

theorem explanations_messageOf (text : List Char) (next : List Message) :
    (messageOf text next).explanations = Message.linksOf next := by
  cases next with
  | nil => rfl
  | cons m ms => rfl

theorem texts_messageOf (text : List Char) (es : List (Nat × List Char)) :
    (messageOf text (forest es)).texts = text :: es.map (·.2) := by
  rw [Message.texts, heading_messageOf, explanations_messageOf, linksOf_forest, List.map_map]
  rfl

/-- Each line of a block stands apart on the one line that the message is told on. -/
theorem flat_messageOf (text : List Char) (es : List (Nat × List Char)) :
    (messageOf text (forest es)).flat =
      .ofList (Text.collapse ([' '].intercalate (text :: es.map (·.2)))) := by
  rw [← texts_messageOf, Message.flat_eq_joined_iff]
  apply Message.areApart_of_ownLine
  rw [explanations_messageOf, linksOf_forest]
  intro l hl
  obtain ⟨e, -, rfl⟩ := List.mem_map.mp hl
  rfl

/-- The lines that explain a header: their depths, and their texts without blanks at the ends. -/
def entriesOf (below : List (List Char)) : List (Nat × List Char) :=
  below.map fun line => (lineDepth line, Text.strip line)

theorem depth_pos_of_mem_entriesOf {below : List (List Char)} :
    ∀ e ∈ entriesOf below, 0 < e.1 := by
  intro e he
  obtain ⟨line, -, rfl⟩ := List.mem_map.mp he
  exact Nat.le_max_left 1 _

theorem map_text_entriesOf (below : List (List Char)) :
    (entriesOf below).map (·.2) = below.map Text.strip := by
  rw [entriesOf, List.map_map]
  rfl

/-- The lines of a block at their depths: the header, and the lines that explain it. -/
def blockLines (h : Header) (below : List (List Char)) : List (Nat × List Char) :=
  (0, h.text) :: entriesOf below

/-- What a block says: the text of the header, or the tree of the block if something explains it. -/
def blockMessage (h : Header) (below : List (List Char)) : Message :=
  if below.isEmpty then .text (.ofList h.text) else treeOf (blockLines h below) 0

theorem messageOf_eq_blockMessage (h : Header) (below : List (List Char)) :
    messageOf h.text (forest (entriesOf below)) = blockMessage h below := by
  cases below with
  | nil =>
    rw [entriesOf, List.map_nil, forest]
    rfl
  | cons line below =>
    have hforest := @forest_eq_children h.text _ (@depth_pos_of_mem_entriesOf (line :: below))
    have hroot : textAt (blockLines h (line :: below)) 0 = h.text := rfl
    rw [blockMessage, if_neg (by simp), treeOf_eq, hroot, blockLines, ← hforest, entriesOf,
      List.map_cons, forest]
    rfl

/-! ## Blocks in listings -/

theorem map_ofText_of_isContinuation {below : List (List Char)}
    (h : ∀ line ∈ below, IsContinuation line) :
    below.map Line.ofText = Listing.below (entriesOf below) := by
  rw [Listing.below, entriesOf, List.map_map]
  apply List.map_congr_left
  intro line hline
  exact ofText_eq_continuation_iff.mpr ⟨h line hline, rfl, rfl⟩

theorem blocks_block {before below after : List (List Char)} {header : List Char} {h : Header}
    (hheader : IsHeader header h) (hbelow : ∀ line ∈ below, IsContinuation line)
    (hafter : ∀ line ∈ after.head?, ¬ IsContinuation line) :
    blocks ((before ++ header :: (below ++ after)).map Line.ofText) =
      blocks (before.map Line.ofText) ++
        (h, entriesOf below) :: blocks (after.map Line.ofText) := by
  have hfollow := continuations_map_eq_nil_iff.mpr hafter
  rw [List.map_append, List.map_cons, List.map_append, hheader.ofText,
    map_ofText_of_isContinuation hbelow, blocks_append _ (by rfl), blocks, continuations_below,
    blocks_below, hfollow, List.append_nil]

/-- **The diagnostic of a block**, wherever the block stands in a listing: its message is the tree
in which each line is a child of the last line before it that is less far to the right. So its texts
are the lines in order, and they all stand apart on one line. -/
theorem read_block {directory : Location} {text header : List Char} {h : Header}
    {before below after : List (List Char)}
    (hlines : Text.splitLines text = before ++ header :: (below ++ after))
    (hheader : IsHeader header h) (hbelow : ∀ line ∈ below, IsContinuation line)
    (hafter : ∀ line ∈ after.head?, ¬ IsContinuation line) (hfiles : FilesResolve directory text) :
    ∃ front d back, read directory text = .ok (front ++ d :: back) ∧
      front.length = (before.filter (HasHeaderForm ·)).length ∧
      back.length = (after.filter (HasHeaderForm ·)).length ∧
      h.Opens directory d ∧ d.message = blockMessage h below ∧
      d.message.texts = h.text :: below.map Text.strip ∧
      d.flat = .ofList (Text.collapse ([' '].intercalate (h.text :: below.map Text.strip))) := by
  obtain ⟨ds, hds⟩ := exists_read_iff.mpr hfiles
  have hread := hds
  rw [read_eq, hlines, blocks_block hheader hbelow hafter, List.mapM_append] at hread
  obtain ⟨front, hfront, hread⟩ := exists_of_bind_eq_ok hread
  obtain ⟨rest, hrest, hread⟩ := exists_of_bind_eq_ok hread
  rw [List.mapM_cons] at hrest
  obtain ⟨d, hd, hrest⟩ := exists_of_bind_eq_ok hrest
  obtain ⟨back, hback, hrest⟩ := exists_of_bind_eq_ok hrest
  obtain rfl := Except.ok.inj hrest
  obtain rfl := Except.ok.inj hread
  obtain ⟨hopens, hmessage⟩ := toDiagnostic_eq_ok_iff.mp hd
  refine ⟨front, d, back, hds, ?_, ?_, hopens, ?_, ?_, ?_⟩
  · rw [← length_blocks, (mapM_eq_ok_iff.mp hfront).length_eq]
  · rw [← length_blocks, (mapM_eq_ok_iff.mp hback).length_eq]
  · rw [hmessage, messageOf_eq_blockMessage]
  · rw [hmessage, texts_messageOf, map_text_entriesOf]
  · rw [Diagnostic.flat, hmessage, flat_messageOf, map_text_entriesOf]

/-- Lines that are five, two, seven and three spaces further in than their header. -/
def oddLines : List (List Char) :=
  ["     a".toList, "  b".toList, "       c".toList, "   d".toList]

/-- A listing with such a block in it. -/
def oddSample : List Char :=
  "told apart\na.ts(3,4): error TS7: R\n     a\n  b\n       c\n   d\n \nerror TS9: z".toList

def oddHeader : Header :=
  ⟨some ("a.ts".toList, 3, 4), "error", 7, "R".toList⟩

theorem blockMessage_odd : blockMessage oddHeader oddLines =
    .chain "R" [.chain "a" [], .chain "b" [.chain "c" []], .chain "d" []] := by
  have hroot : childrenOf (blockLines oddHeader oddLines) 0 = [1, 2, 4] := by decide
  have hb : childrenOf (blockLines oddHeader oddLines) 2 = [3] := by decide
  have hothers : ∀ i ∈ [1, 3, 4], childrenOf (blockLines oddHeader oddLines) i = [] := by decide
  rw [blockMessage, if_neg (by decide), treeOf_eq, hroot, List.map_cons, List.map_cons,
    List.map_singleton, treeOf_eq _ 1, treeOf_eq _ 2, treeOf_eq _ 4, hb, List.map_singleton,
    treeOf_eq _ 3, hothers 1 (by decide), hothers 3 (by decide), hothers 4 (by decide)]
  rfl

theorem read_block_odd :
    Text.splitLines oddSample = ["told apart".toList] ++ "a.ts(3,4): error TS7: R".toList ::
        (oddLines ++ [" ".toList, "error TS9: z".toList]) ∧
      IsHeader "a.ts(3,4): error TS7: R".toList oddHeader ∧
      (∀ line ∈ oddLines, IsContinuation line) ∧
      (∀ line ∈ [" ".toList, "error TS9: z".toList].head?, ¬ IsContinuation line) ∧
      FilesResolve ⟨["base"]⟩ oddSample ∧
      ∃ d back, read ⟨["base"]⟩ oddSample = .ok (d :: back) ∧ back.length = 1 ∧
        d.message = .chain "R" [.chain "a" [], .chain "b" [.chain "c" []], .chain "d" []] ∧
        d.flat = "R a b c d" := by
  have hlines : Text.splitLines oddSample = ["told apart".toList] ++
      "a.ts(3,4): error TS7: R".toList :: (oddLines ++ [" ".toList, "error TS9: z".toList]) := by
    decide
  have hheader : IsHeader "a.ts(3,4): error TS7: R".toList oddHeader :=
    ofText_eq_header_iff.mp (by decide)
  have hbelow : ∀ line ∈ oddLines, IsContinuation line := by decide
  have hafter : ∀ line ∈ [" ".toList, "error TS9: z".toList].head?, ¬ IsContinuation line := by
    decide
  have hfiles : FilesResolve ⟨["base"]⟩ oddSample := by decide
  obtain ⟨front, d, back, hread, hfront, hback, -, hmessage, -, hflat⟩ :=
    read_block hlines hheader hbelow hafter hfiles
  obtain rfl := List.eq_nil_of_length_eq_zero (hfront.trans (by decide))
  refine ⟨hlines, hheader, hbelow, hafter, hfiles, d, back, hread, hback.trans (by decide), ?_, ?_⟩
  · rw [hmessage, blockMessage_odd]
  · rw [hflat]
    decide

/-- A block under a header for a file with the null character in its name. -/
def nullBlock : List Char :=
  "a\x00b(1,1): error TS1: x\n  y".toList

theorem not_read_nullBlock :
    Text.splitLines nullBlock = ["a\x00b(1,1): error TS1: x".toList, "  y".toList] ∧
      (∃ h, IsHeader "a\x00b(1,1): error TS1: x".toList h) ∧ IsContinuation "  y".toList ∧
        ∀ ds, read ⟨["virt", "base"]⟩ nullBlock ≠ .ok ds := by
  have hfiles : ¬ FilesResolve ⟨["virt", "base"]⟩ nullBlock := by decide
  refine ⟨by decide, ⟨_, ofText_eq_header_iff.mp rfl⟩, by decide, fun ds hds => ?_⟩
  exact hfiles (exists_read_iff.mp ⟨ds, hds⟩)

end ExpectedDiagnostics.Listing
