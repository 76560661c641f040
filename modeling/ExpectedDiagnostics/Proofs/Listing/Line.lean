import ExpectedDiagnostics.Listing.Line
import ExpectedDiagnostics.Proofs.Text.Printed
import ExpectedDiagnostics.Proofs.Text.Tidy
import Mathlib.Data.List.Infix
import Mathlib.Data.List.TakeWhile

/-!
# Telling lines apart

A header of a diagnostic in a file has a mark behind the name of the file: a position in
parentheses, a category and a code. The name is as short as possible, so a header is read back as it
was printed if the name has no mark in it; and a line without a mark is no such header. A mark has
one opening parenthesis, at its beginning, and so no mark begins in the name and ends behind it.

Main results:

* `markFree_iff` — a text has no mark exactly if none can be read at any place of it.
* `ofText_fileHeader`, `ofText_globalHeader`, `ofText_continuation` — what a printed line is read
  as.
-/

namespace ExpectedDiagnostics.Listing

/-! ## Marks -/

/-- A number as a listing may have it. -/
def IsNumber (ds : List Char) : Prop :=
  ds ≠ [] ∧ ∀ d ∈ ds, Text.isDigit d = true

/-- What follows the position in a header, up to the message. -/
def statementText (category : String) (code : List Char) : List Char :=
  category.toList ++ ([' ', 'T', 'S'] ++ (code ++ [':', ' ']))

/-- What follows the name of the file in a header, up to the message. -/
def markText (line column : List Char) (category : String) (code : List Char) : List Char :=
  '(' :: (line ++ (',' :: (column ++ ([')', ':', ' '] ++ statementText category code))))

def IsMark (cs : List Char) : Prop :=
  ∃ line column category code, IsNumber line ∧ IsNumber column ∧ category ∈ categories ∧
    IsNumber code ∧ cs = markText line column category code

/-- A text with a mark at its front. -/
def StartsMark (cs : List Char) : Prop :=
  ∃ mark, IsMark mark ∧ mark <+: cs

/-- A text that no mark stands in. -/
def MarkFree (cs : List Char) : Prop :=
  ∀ mark, IsMark mark → ¬ mark <:+: cs

theorem IsNumber.not_mem {ds : List Char} {c : Char} (h : IsNumber ds)
    (hc : Text.isDigit c = false) : c ∉ ds := by
  intro hmem
  rw [h.2 c hmem] at hc
  exact absurd hc (by decide)

/-- After the opening parenthesis of a mark there is no other one. -/
theorem IsMark.parenthesis {cs : List Char} (h : IsMark cs) :
    ∃ rest, cs = '(' :: rest ∧ '(' ∉ rest := by
  obtain ⟨line, column, category, code, hline, hcolumn, hcategory, hcode, rfl⟩ := h
  have hdigit : Text.isDigit '(' = false := by decide
  have hword : '(' ∉ category.toList := by
    revert category
    decide
  refine ⟨_, rfl, ?_⟩
  simp [statementText, hline.not_mem hdigit, hcolumn.not_mem hdigit, hcode.not_mem hdigit, hword]

/-- What comes before the first opening parenthesis brings no mark. -/
theorem MarkFree.append_left {front cs : List Char} (h : MarkFree cs) (hfront : '(' ∉ front) :
    MarkFree (front ++ cs) := by
  induction front with
  | nil => exact h
  | cons c front ih =>
    rw [List.mem_cons, not_or] at hfront
    intro mark hmark hinfix
    rcases List.infix_cons_iff.mp hinfix with hbegins | hlater
    · obtain ⟨rest, rfl, -⟩ := hmark.parenthesis
      obtain ⟨more, hmore⟩ := hbegins
      exact hfront.1 (List.cons.inj hmore).1
    · exact ih hfront.2 mark hmark hlater

/-! ## What can be read begins with a mark -/

theorem eq_append_of_number? {cs rest : List Char} {n : Nat} (h : number? cs = some (n, rest)) :
    ∃ ds, IsNumber ds ∧ cs = ds ++ rest := by
  unfold number? at h
  split at h
  · exact absurd h (by simp)
  · rename_i hne
    obtain ⟨-, rfl⟩ := Prod.mk.inj (Option.some.inj h)
    refine ⟨cs.takeWhile Text.isDigit, ⟨hne, ?_⟩, (List.takeWhile_append_dropWhile ..).symm⟩
    intro d hd
    exact List.mem_takeWhile_imp hd

theorem eq_append_of_statement? {cs text : List Char} {category : String} {n : Nat}
    (h : statement? cs = some (category, n, text)) :
    ∃ code, category ∈ categories ∧ IsNumber code ∧ cs = statementText category code ++ text := by
  obtain ⟨found, hfound, h⟩ := List.exists_of_findSome?_eq_some h
  simp only [Option.bind_eq_bind, Option.bind_eq_some_iff, Prod.exists] at h
  obtain ⟨cs₁, h₁, cs₂, h₂, code, cs₃, h₃, cs₄, h₄, h⟩ := h
  obtain ⟨rfl, rfl, rfl⟩ : found = category ∧ code = n ∧ cs₄ = text := by simpa using h
  obtain ⟨ds, hds, rfl⟩ := eq_append_of_number? h₃
  rw [Text.eq_append_of_after? h₄] at h₂
  refine ⟨ds, hfound, hds, ?_⟩
  rw [Text.eq_append_of_after? h₁, Text.eq_append_of_after? h₂]
  simp [statementText]

theorem startsMark_of_placed? {before cs : List Char} {h : Header}
    (hplaced : placed? before cs = some h) : StartsMark cs := by
  unfold placed? position? at hplaced
  simp only [Option.bind_eq_bind, Option.bind_eq_some_iff, Prod.exists] at hplaced
  obtain ⟨line, column, after, ⟨cs₁, h₁, l, cs₂, h₂, cs₃, h₃, c, cs₄, h₄, cs₅, h₅, hpos⟩, category,
    code, text, hstatement, -⟩ := hplaced
  obtain ⟨rfl, rfl, rfl⟩ : l = line ∧ c = column ∧ cs₅ = after := by simpa using hpos
  obtain ⟨digits, hcategory, hdigits, rfl⟩ := eq_append_of_statement? hstatement
  obtain ⟨ds, hds, rfl⟩ := eq_append_of_number? h₂
  obtain ⟨es, hes, rfl⟩ := eq_append_of_number? h₄
  refine ⟨markText ds es category digits, ⟨ds, es, category, digits, hds, hes, hcategory, hdigits,
    rfl⟩, text, ?_⟩
  rw [Text.eq_append_of_after? h₁, Text.eq_append_of_after? h₃, Text.eq_append_of_after? h₅]
  simp [markText]

theorem placed?_eq_none {before cs : List Char} (h : ¬ StartsMark cs) : placed? before cs = none :=
  Option.eq_none_iff_forall_not_mem.mpr fun _ hheader => h (startsMark_of_placed? hheader)

theorem MarkFree.not_startsMark {front cs : List Char} (h : MarkFree (front ++ cs)) :
    ¬ StartsMark cs := by
  rintro ⟨mark, hmark, hbegins⟩
  exact h mark hmark (hbegins.isInfix.trans (List.suffix_append front cs).isInfix)

/-- A line is no header of a diagnostic in a file, if no mark stands behind a name. -/
theorem fileHeader?_eq_none {done todo : List Char}
    (h : ∀ name rest, todo = name ++ rest → done ++ name ≠ [] → ¬ StartsMark rest) :
    fileHeader? done.reverse todo = none := by
  induction todo generalizing done with
  | nil => rfl
  | cons c todo ih =>
    have hhere : (if done.reverse.isEmpty then none else placed? done.reverse (c :: todo)) =
        none := by
      split
      · rfl
      · rename_i hne
        refine placed?_eq_none (h [] (c :: todo) rfl ?_)
        simpa using hne
    have hrest := @ih (done ++ [c]) fun name rest htodo _ =>
      h (c :: name) rest (congrArg (c :: ·) htodo)
        (List.append_ne_nil_of_right_ne_nil _ (List.cons_ne_nil c name))
    rw [List.reverse_append, List.reverse_singleton, List.singleton_append] at hrest
    rw [fileHeader?, hhere]
    exact hrest

/-- A line without a mark is no header of a diagnostic in a file. -/
theorem MarkFree.fileHeader?_eq_none {cs : List Char} (h : MarkFree cs) :
    fileHeader? [] cs = none :=
  @Listing.fileHeader?_eq_none [] cs fun _ _ hcs _ => (hcs ▸ h).not_startsMark

/-! ## What begins with a mark can be read -/

theorem number?_append {ds : List Char} (hds : IsNumber ds) {c : Char}
    (hc : Text.isDigit c = false) (rest : List Char) :
    number? (ds ++ c :: rest) = some (Text.number ds, c :: rest) := by
  have hstop : ∀ d ∈ (c :: rest).head?, Text.isDigit d = false := by
    intro d hd
    rwa [← Option.some.inj hd]
  obtain ⟨htake, hdrop⟩ := Text.takeWhile_append_stop hds.2 hstop
  unfold number?
  rw [htake, hdrop]
  split
  · exact absurd rfl hds.1
  · rfl

/-- No category begins like another one. -/
theorem after?_category {category other : String} (hcategory : category ∈ categories)
    (hother : other ∈ categories) (hne : other ≠ category) (rest : List Char) :
    Text.after? other.toList (category.toList ++ rest) = none := by
  have hheads : ∀ a ∈ categories, ∀ b ∈ categories, a.toList.head? = b.toList.head? → a = b := by
    decide
  have hnonempty : ∀ a ∈ categories, a.toList ≠ [] := by decide
  rw [Option.eq_none_iff_forall_not_mem]
  intro left hleft
  have hhead := congrArg List.head? (Text.eq_append_of_after? hleft)
  rw [List.head?_append_of_ne_nil _ (hnonempty category hcategory),
    List.head?_append_of_ne_nil _ (hnonempty other hother)] at hhead
  exact hne (hheads other hother category hcategory hhead.symm)

theorem findSome?_eq_some_of_unique {α β : Type} {f : α → Option β} {a : α} {b : β} {xs : List α}
    (ha : a ∈ xs) (hb : f a = some b) (hothers : ∀ x ∈ xs, x ≠ a → f x = none) :
    xs.findSome? f = some b := by
  induction xs with
  | nil => exact absurd ha List.not_mem_nil
  | cons x xs ih =>
    rw [List.findSome?_cons]
    by_cases hx : x = a
    · rw [hx, hb]
    · rw [hothers x List.mem_cons_self hx]
      refine ih ?_ fun y hy => hothers y (List.mem_cons_of_mem _ hy)
      exact (List.mem_cons.mp ha).resolve_left fun heq => hx heq.symm

theorem statement?_append {category : String} {code : List Char} (hcategory : category ∈ categories)
    (hcode : IsNumber code) (text : List Char) :
    statement? (statementText category code ++ text) =
      some (category, Text.number code, text) := by
  have hnumber : number? (code ++ ([':', ' '] ++ text)) =
      some (Text.number code, [':', ' '] ++ text) :=
    number?_append hcode (by decide) (' ' :: text)
  unfold statement? statementText
  rw [List.append_assoc]
  refine findSome?_eq_some_of_unique hcategory ?_ fun other hother hne => ?_
  · simp only [List.append_assoc, Text.after?_append, hnumber, bind, Option.bind, pure]
  · rw [after?_category hcategory hother hne]
    rfl

theorem placed?_append {line column code : List Char} {category : String} (hline : IsNumber line)
    (hcolumn : IsNumber column) (hcategory : category ∈ categories) (hcode : IsNumber code)
    (before text : List Char) :
    placed? before (markText line column category code ++ text) =
      some ⟨some (before.reverse, Text.number line, Text.number column), category,
        Text.number code, text⟩ := by
  have hstatement := statement?_append hcategory hcode text
  have hsecond := number?_append hcolumn (c := ')') (by decide)
    (':' :: ' ' :: (statementText category code ++ text))
  have hfirst := number?_append hline (c := ',') (by decide)
    (column ++ ')' :: ':' :: ' ' :: (statementText category code ++ text))
  simp [placed?, position?, markText, Text.after?, hfirst, hsecond, hstatement]

theorem markFree_iff {cs : List Char} :
    MarkFree cs ↔ ∀ tail ∈ cs.tails, placed? [] tail = none := by
  constructor
  · intro h tail htail
    obtain ⟨front, rfl⟩ := (List.mem_tails _ _).mp htail
    exact placed?_eq_none h.not_startsMark
  · rintro h _ ⟨line, column, category, code, hline, hcolumn, hcategory, hcode, rfl⟩ hinfix
    obtain ⟨before, text, rfl⟩ := hinfix
    have htail := h (markText line column category code ++ text) (by
      rw [List.mem_tails, List.append_assoc]
      exact List.suffix_append _ _)
    rw [placed?_append hline hcolumn hcategory hcode] at htail
    exact absurd htail (by simp)

instance (cs : List Char) : Decidable (MarkFree cs) :=
  decidable_of_iff _ markFree_iff.symm

/-! ## Printed headers -/

theorem isNumber_toDigits (n : Nat) : IsNumber (Nat.toDigits 10 n) :=
  ⟨Nat.toDigits_ne_nil, fun _ hd => Text.isDigit_of_isDigit (isDigit_of_mem_toDigits hd)⟩

/-- No mark begins in a text without one, when another mark stands right behind the text: it would
have the parenthesis of the other one in it. -/
theorem MarkFree.not_prefix {cs mark other : List Char} (hfree : MarkFree cs) (hne : cs ≠ [])
    (hmark : IsMark mark) (hother : IsMark other) (text : List Char) :
    ¬ other <+: cs ++ (mark ++ text) := by
  intro hbegins
  rcases List.prefix_or_prefix_of_prefix hbegins (List.prefix_append _ _) with hinside | hbeyond
  · exact hfree other hother hinside.isInfix
  obtain ⟨beyond, rfl⟩ := hbeyond
  obtain ⟨rest, hrest, hnone⟩ := hother.parenthesis
  obtain ⟨inner, hinner, -⟩ := hmark.parenthesis
  obtain ⟨c, cs, rfl⟩ := List.exists_cons_of_ne_nil hne
  obtain ⟨rfl, rfl⟩ := List.cons.inj hrest
  cases beyond with
  | nil =>
    rw [List.append_nil] at hother
    exact hfree _ hother (List.infix_refl _)
  | cons d beyond =>
    rw [List.prefix_append_right_inj, hinner, List.cons_append] at hbegins
    obtain ⟨more, hmore⟩ := hbegins
    obtain rfl := (List.cons.inj hmore).1
    exact hnone (List.mem_append_right _ List.mem_cons_self)

/-- The name of a file is read character by character, up to the first mark behind it. -/
theorem fileHeader?_append {done name rest : List Char} {header : Header} (hne : done ++ name ≠ [])
    (hplaced : placed? (done ++ name).reverse rest = some header)
    (hfirst : ∀ shorter longer, name ++ rest = shorter ++ longer → done ++ shorter ≠ [] →
      shorter.length < name.length → ¬ StartsMark longer) :
    fileHeader? done.reverse (name ++ rest) = some header := by
  induction name generalizing done with
  | nil =>
    obtain ⟨mark, hmark, more, rfl⟩ := startsMark_of_placed? hplaced
    obtain ⟨inner, rfl, -⟩ := hmark.parenthesis
    rw [List.append_nil] at hne hplaced
    have hempty : ¬ done.reverse.isEmpty = true := by
      rw [List.isEmpty_iff, List.reverse_eq_nil_iff]
      exact hne
    rw [List.nil_append, List.cons_append, fileHeader?, if_neg hempty]
    rw [List.cons_append] at hplaced
    rw [hplaced]
  | cons c name ih =>
    have hhere : (if done.reverse.isEmpty then none
        else placed? done.reverse (c :: name ++ rest)) = none := by
      split
      · rfl
      · rename_i hempty
        refine placed?_eq_none (hfirst [] _ rfl ?_ (by simp))
        simpa using hempty
    have hsplit : done ++ c :: name = done ++ [c] ++ name := List.append_cons ..
    rw [hsplit] at hne hplaced
    have hnext := ih hne hplaced fun shorter longer hlonger _ hlength =>
      hfirst (c :: shorter) longer (congrArg (c :: ·) hlonger)
        (List.append_ne_nil_of_right_ne_nil _ (List.cons_ne_nil c shorter))
        (Nat.succ_lt_succ hlength)
    rw [List.reverse_append, List.reverse_singleton, List.singleton_append] at hnext
    rw [List.cons_append] at hhere ⊢
    rw [fileHeader?, hhere]
    exact hnext

/-- No mark begins in a name without one, before the mark that stands behind it. -/
theorem MarkFree.not_startsMark_of_shorter {file mark text : List Char} (h : MarkFree file)
    (hmark : IsMark mark) {shorter longer : List Char}
    (hsplit : file ++ (mark ++ text) = shorter ++ longer) (hlength : shorter.length < file.length) :
    ¬ StartsMark longer := by
  rintro ⟨other, hother, hbegins⟩
  obtain ⟨inner, rfl, rfl⟩ :
      ∃ inner, file = shorter ++ inner ∧ longer = inner ++ (mark ++ text) := by
    rcases List.append_eq_append_iff.mp hsplit with ⟨inner, rfl, -⟩ | h
    · rw [List.length_append] at hlength
      omega
    · exact h
  have hne : inner ≠ [] := by
    rintro rfl
    simp at hlength
  have hfree : MarkFree inner := fun m hm hinner =>
    h m hm (hinner.trans (List.suffix_append shorter inner).isInfix)
  exact hfree.not_prefix hne hmark hother text hbegins

/-- The header of a diagnostic in a file is read as it was printed. -/
theorem ofText_fileHeader {category : String} (hcategory : category ∈ categories)
    (line column n : Nat) {file : List Char} (text : List Char) (hne : file ≠ [])
    (hfree : MarkFree file) :
    Line.ofText (file ++ (markText (Nat.toDigits 10 line) (Nat.toDigits 10 column) category
      (Nat.toDigits 10 n) ++ text)) =
        .header ⟨some (file, line, column), category, n, text⟩ := by
  have hmark : IsMark (markText (Nat.toDigits 10 line) (Nat.toDigits 10 column) category
      (Nat.toDigits 10 n)) :=
    ⟨_, _, _, _, isNumber_toDigits _, isNumber_toDigits _, hcategory, isNumber_toDigits _, rfl⟩
  have hplaced := placed?_append (isNumber_toDigits line) (isNumber_toDigits column) hcategory
    (isNumber_toDigits n) file.reverse text
  rw [List.reverse_reverse, Text.number_toDigits, Text.number_toDigits,
    Text.number_toDigits] at hplaced
  have hheader := @fileHeader?_append [] file _ _ hne hplaced
    fun _ _ hsplit _ hlength => hfree.not_startsMark_of_shorter hmark hsplit hlength
  rw [List.reverse_nil] at hheader
  rw [Line.ofText, hheader]

/-- The header of a diagnostic without a file is read as it was printed. -/
theorem ofText_globalHeader {category : String} (hcategory : category ∈ categories) (n : Nat)
    {text : List Char} (hfree : MarkFree text) :
    Line.ofText (statementText category (Nat.toDigits 10 n) ++ text) =
      .header ⟨none, category, n, text⟩ := by
  have hfront : '(' ∉ statementText category (Nat.toDigits 10 n) := by
    have hnumber := (isNumber_toDigits n).not_mem (c := '(') (by decide)
    have hword : '(' ∉ category.toList := by
      revert category
      decide
    simp [statementText, hnumber, hword]
  rw [Line.ofText, (hfree.append_left hfront).fileHeader?_eq_none, globalHeader?,
    statement?_append hcategory (isNumber_toDigits n), Text.number_toDigits]
  rfl

/-! ## Printed explanations -/

/-- A text that is not empty and has no blanks at its ends. -/
structure Unpadded (cs : List Char) : Prop where
  nonempty : cs ≠ []
  front : ∀ c ∈ cs.head?, Text.isBlank c = false
  back : ∀ c ∈ cs.getLast?, Text.isBlank c = false

theorem unpadded_iff {cs : List Char} : Unpadded cs ↔
    cs ≠ [] ∧ cs.head?.all (!Text.isBlank ·) = true ∧ cs.getLast?.all (!Text.isBlank ·) = true := by
  simp only [Option.all_eq_true, Bool.not_eq_true']
  exact ⟨fun h => ⟨h.nonempty, h.front, h.back⟩, fun h => ⟨h.1, h.2.1, h.2.2⟩⟩

instance (cs : List Char) : Decidable (Unpadded cs) :=
  decidable_of_iff _ unpadded_iff.symm

theorem Unpadded.exists_cons {cs : List Char} (h : Unpadded cs) :
    ∃ c rest, cs = c :: rest ∧ Text.isBlank c = false := by
  obtain ⟨c, rest, rfl⟩ := List.exists_cons_of_ne_nil h.nonempty
  exact ⟨c, rest, rfl, h.front c rfl⟩

theorem strip_indented {cs : List Char} (h : Unpadded cs) (spaces : Nat) :
    Text.strip (List.replicate spaces ' ' ++ cs) = cs := by
  have hspaces : Text.AllBlank (List.replicate spaces ' ') := by
    intro c hc
    rw [List.eq_of_mem_replicate hc]
    exact Text.isBlank_space
  have hstrip := Text.strip_append hspaces Text.allBlank_nil ⟨h.front, h.back⟩
  rwa [List.append_nil] at hstrip

theorem after?_space {category : String} (hcategory : category ∈ categories) (rest : List Char) :
    Text.after? category.toList (' ' :: rest) = none := by
  have hletter : ∀ a ∈ categories, ∃ c cs, a.toList = c :: cs ∧ (c == ' ') = false := by
    simp only [categories, List.forall_mem_cons]
    exact ⟨⟨_, _, rfl, rfl⟩, ⟨_, _, rfl, rfl⟩, ⟨_, _, rfl, rfl⟩, ⟨_, _, rfl, rfl⟩,
      fun a ha => absurd ha List.not_mem_nil⟩
  obtain ⟨c, cs, hcs, hc⟩ := hletter category hcategory
  rw [hcs, Text.after?, hc]
  rfl

/-- A line that begins with a space has no category at its front. -/
theorem statement?_space (cs : List Char) : statement? (' ' :: cs) = none := by
  unfold statement?
  rw [List.findSome?_eq_none_iff]
  intro category hcategory
  rw [after?_space hcategory]
  rfl

/-- A line that explains another one is read as it was printed, if it stands further in. -/
theorem ofText_continuation {cs : List Char} (hpad : Unpadded cs) (hfree : MarkFree cs)
    {depth : Nat} (hdepth : 0 < depth) :
    Line.ofText (List.replicate (2 * depth) ' ' ++ cs) = .continuation depth cs := by
  obtain ⟨c, rest, hfront, hc⟩ := hpad.exists_cons
  have hspace : (c == ' ') = false := by
    rw [beq_eq_false_iff_ne]
    rintro rfl
    exact absurd hc (by decide)
  have hspaces : ((List.replicate (2 * depth) ' ' ++ cs).takeWhile (· == ' ')).length =
      2 * depth := by
    rw [hfront, List.takeWhile_append_of_pos, List.takeWhile_cons_of_neg (by simp [hspace]),
      List.append_nil, List.length_replicate]
    intro s hs
    rw [List.eq_of_mem_replicate hs]
    decide
  have hfile : MarkFree (List.replicate (2 * depth) ' ' ++ cs) := by
    apply hfree.append_left
    intro hmem
    exact absurd (List.eq_of_mem_replicate hmem) (by decide)
  have hglobal : globalHeader? (List.replicate (2 * depth) ' ' ++ cs) = none := by
    obtain ⟨k, hk⟩ : ∃ k, 2 * depth = k + 1 := ⟨2 * depth - 1, by omega⟩
    rw [hk, List.replicate_succ, List.cons_append]
    unfold globalHeader?
    rw [statement?_space]
    rfl
  rw [Line.ofText, hfile.fileHeader?_eq_none, hglobal]
  dsimp only
  unfold continuation?
  rw [strip_indented hpad, hspaces, hfront]
  have hstep : stepWidth ≤ 2 * depth := by
    unfold stepWidth
    omega
  have hdepth' : depthOf (2 * depth) = depth := by
    unfold depthOf stepWidth
    omega
  simp [hstep, hdepth']

end ExpectedDiagnostics.Listing
