import ExpectedDiagnostics.Message
import ExpectedDiagnostics.Proofs.Text.Joined

/-!
# Messages on one line

What the text of a message on one line is made of: the texts of the message and of all that explains
it, in pre-order. A link of a chain stands apart from what comes before it, at whatever depth; a
plain text among the explanations does not, and runs on.

Main results:

* `flat_eq` — the text on one line, told by its pieces.
* `flat_eq_joined_iff` — when it is the texts with spaces between them: exactly if no plain text
  runs on.
-/

namespace ExpectedDiagnostics.Message

/-- A message that explains another one: its text, and whether it is the head of a chain and so has
a line of its own. -/
structure Link where
  ownLine : Bool
  text : List Char
  deriving DecidableEq, Repr

/-- The text of the message itself. -/
def heading : Message → List Char
  | text s => s.toList
  | chain head _ => head.toList

mutual

/-- A message and all that explains it, in pre-order. -/
def links : Message → List Link
  | text s => [⟨false, s.toList⟩]
  | chain head next => ⟨true, head.toList⟩ :: linksOf next

def linksOf : List Message → List Link
  | [] => []
  | m :: ms => links m ++ linksOf ms

end

/-- All that explains a message, in pre-order. -/
def explanations : Message → List Link
  | text _ => []
  | chain _ next => linksOf next

/-- The texts of a message, in pre-order. -/
def texts (m : Message) : List (List Char) :=
  m.heading :: m.explanations.map (·.text)

/-- The texts of links as they are told, one after the other: a space in front of those with a line
of their own. -/
def told (ls : List Link) : List Char :=
  ls.flatMap fun l => if l.ownLine then ' ' :: l.text else l.text

/-- The texts of links with a space in front of each. -/
def spaced (ls : List Link) : List Char :=
  ls.flatMap fun l => ' ' :: l.text

/-- No plain text among the links runs on from what stands before it. -/
def AreApart (front : List Char) (ls : List Link) : Prop :=
  ∀ before l after, ls = before ++ l :: after → l.ownLine = false →
    Text.Apart (front ++ told before) (l.text ++ told after)

/-! ## Pieces -/

theorem told_append (ls more : List Link) : told (ls ++ more) = told ls ++ told more :=
  List.flatMap_append

theorem told_cons (l : Link) (ls : List Link) :
    told (l :: ls) = (if l.ownLine then ' ' :: l.text else l.text) ++ told ls := rfl

theorem spaced_cons (l : Link) (ls : List Link) : spaced (l :: ls) = ' ' :: l.text ++ spaced ls :=
  rfl

/-- Texts joined by spaces are the first one and then each with a space in front of it. -/
theorem intercalate_texts (m : Message) :
    [' '].intercalate m.texts = m.heading ++ spaced m.explanations := by
  unfold texts
  generalize m.heading = front
  induction m.explanations generalizing front with
  | nil => simp [List.intercalate, spaced]
  | cons l ls ih =>
    have hrest := ih l.text
    rw [List.map_cons, List.intercalate_cons_cons, hrest, spaced_cons]
    simp

/-! ## Chains on one line -/

theorem allBlank_separator (indent : Int) (hindent : indent ≠ 0) :
    Text.AllBlank (separator "\n" indent).toList ∧ (separator "\n" indent).toList ≠ [] := by
  have hlist : (separator "\n" indent).toList = '\n' :: List.replicate (2 * indent.toNat) ' ' := by
    unfold separator
    rw [if_neg (by simpa using hindent), String.toList_append, String.toList_ofList,
      String.toList_ofList, List.singleton_append]
  rw [hlist]
  refine ⟨?_, List.cons_ne_nil _ _⟩
  intro c hc
  rcases List.mem_cons.mp hc with rfl | hc
  · decide
  · rw [List.eq_of_mem_replicate hc]
    exact Text.isBlank_space

mutual

/-- Collapsing makes one space of what separates a link from the text before it. -/
theorem collapse_flatten (m : Message) {indent : Int} (hindent : 0 < indent) (rest : List Char) :
    Text.collapse ((flatten "\n" indent m).toList ++ rest) =
      Text.collapse (told (links m) ++ rest) := by
  cases m with
  | text s => simp [flatten, links, told]
  | chain head next =>
    obtain ⟨hblank, hne⟩ := allBlank_separator indent (by omega)
    have hnext := @collapse_flattenAll next (indent + 1) (by omega) rest
    have htold : told (links (.chain head next)) ++ rest =
        ' ' :: head.toList ++ (told (linksOf next) ++ rest) := by
      rw [links, told_cons, if_pos rfl, List.append_assoc]
    rw [flatten, Wording.ofString_eq, String.toList_append, String.toList_append,
      List.append_assoc, List.append_assoc, Text.collapse_blanks hblank hne, htold]
    exact Text.collapse_append_congr (' ' :: head.toList) hnext

theorem collapse_flattenAll (ms : List Message) {indent : Int} (hindent : 0 < indent)
    (rest : List Char) :
    Text.collapse ((flattenAll "\n" indent ms).toList ++ rest) =
      Text.collapse (told (linksOf ms) ++ rest) := by
  cases ms with
  | nil => rfl
  | cons m ms =>
    have hms := collapse_flattenAll ms hindent rest
    rw [flattenAll, String.toList_append, List.append_assoc, collapse_flatten m hindent, linksOf,
      told_append, List.append_assoc]
    exact Text.collapse_append_congr (told (links m)) hms

end

/-- **The text of a message on one line**: its own text, and behind it the texts of all that
explains it, with spaces in front of those that have a line of their own. -/
theorem flat_eq (m : Message) :
    m.flat = .ofList (Text.collapse (m.heading ++ told m.explanations)) := by
  rw [flat, Wording.collapse_eq]
  cases m with
  | text s => simp [flatten, heading, explanations, told]
  | chain head next =>
    have hnext := @collapse_flattenAll next (0 + 1) (by decide) []
    rw [List.append_nil, List.append_nil] at hnext
    have hroot : flatten "\n" 0 (.chain head next) = head ++ flattenAll "\n" (0 + 1) next := by
      rw [flatten, Wording.ofString_eq, show separator "\n" 0 = "" from rfl, String.empty_append]
    rw [hroot, String.toList_append, heading, explanations, Text.collapse_append_congr _ hnext]

/-! ## Texts that run on -/

theorem areApart_nil (front : List Char) : AreApart front [] := by
  intro before l after hsplit
  exact absurd hsplit.symm (by simp)

/-- Texts with lines of their own stand apart. -/
theorem areApart_of_ownLine {front : List Char} {ls : List Link} (h : ∀ l ∈ ls, l.ownLine = true) :
    AreApart front ls := by
  rintro before l after rfl hplain
  have hown := h l (List.mem_append_right before List.mem_cons_self)
  exact absurd (hown.symm.trans hplain) (by decide)

theorem areApart_cons {front : List Char} {l : Link} {ls : List Link} :
    AreApart front (l :: ls) ↔
      (l.ownLine = false → Text.Apart front (l.text ++ told ls)) ∧
        AreApart (front ++ told [l]) ls := by
  constructor
  · intro h
    constructor
    · intro hplain
      have hfirst := h [] l ls rfl hplain
      rwa [show told [] = [] from rfl, List.append_nil] at hfirst
    · rintro before other after rfl hplain
      have hlater := h (l :: before) other after rfl hplain
      rwa [← List.singleton_append, told_append, ← List.append_assoc] at hlater
  · rintro ⟨hfirst, hrest⟩ before other after hsplit hplain
    cases before with
    | nil =>
      obtain ⟨rfl, rfl⟩ := List.cons.inj hsplit
      rw [show told [] = [] from rfl, List.append_nil]
      exact hfirst hplain
    | cons first before =>
      obtain ⟨rfl, rfl⟩ := List.cons.inj hsplit
      rw [← List.singleton_append, told_append, ← List.append_assoc]
      exact hrest before other after rfl hplain

/-- A space that is lost changes nothing about what stands apart further on. -/
theorem apart_space_iff {front middle back : List Char} (h : Text.Apart front (middle ++ back)) :
    Text.Apart (front ++ ' ' :: middle) back ↔ Text.Apart (front ++ middle) back := by
  cases middle with
  | nil =>
    have hspace : Text.Apart (front ++ [' ']) back := by
      left
      rw [Text.endsBlank_append (List.cons_ne_nil _ _)]
      decide
    rw [List.append_nil]
    exact iff_of_true hspace h
  | cons c middle =>
    unfold Text.Apart
    rw [List.append_cons, Text.endsBlank_append (List.cons_ne_nil c middle),
      Text.endsBlank_append (List.cons_ne_nil c middle)]

theorem areApart_space_iff {front text : List Char} {ls : List Link}
    (h : Text.Apart front (text ++ told ls)) :
    AreApart (front ++ ' ' :: text) ls ↔ AreApart (front ++ text) ls := by
  unfold AreApart
  refine forall_congr' fun before => forall_congr' fun l => forall_congr' fun after =>
    forall_congr' fun hsplit => forall_congr' fun hplain => ?_
  have htold : text ++ told ls = (text ++ told before) ++ (l.text ++ told after) := by
    rw [hsplit, told_append, told_cons, if_neg (by simp [hplain]), List.append_assoc]
  rw [htold] at h
  rw [List.append_assoc, List.append_assoc]
  exact apart_space_iff h

theorem length_told_le (front : List Char) (ls : List Link) :
    (Text.collapse (front ++ told ls)).length ≤ (Text.collapse (front ++ spaced ls)).length := by
  induction ls generalizing front with
  | nil => exact Nat.le_refl _
  | cons l ls ih =>
    have hrest := ih (front ++ ' ' :: l.text)
    rw [List.append_assoc, List.append_assoc] at hrest
    rw [told_cons, spaced_cons]
    split
    · exact hrest
    · exact Nat.le_trans (Text.length_collapse_le front (l.text ++ told ls)) hrest

/-- Telling texts one after the other comes to the same as telling them with spaces between them,
exactly if no text runs on: each space that is missing makes the text shorter. -/
theorem collapse_told_eq_iff (front : List Char) (ls : List Link) :
    Text.collapse (front ++ told ls) = Text.collapse (front ++ spaced ls) ↔ AreApart front ls := by
  induction ls generalizing front with
  | nil => exact iff_of_true rfl (areApart_nil front)
  | cons l ls ih =>
    have hrest := ih (front ++ ' ' :: l.text)
    rw [List.append_assoc, List.append_assoc, List.cons_append, List.cons_append] at hrest
    rw [areApart_cons, told_cons, spaced_cons, List.cons_append,
      show told [l] = (if l.ownLine then ' ' :: l.text else l.text) ++ [] from rfl, List.append_nil]
    cases hown : l.ownLine with
    | true =>
      rw [if_pos rfl, List.cons_append, hrest]
      simp
    | false =>
      rw [if_neg Bool.false_ne_true]
      by_cases hapart : Text.Apart front (l.text ++ told ls)
      · rw [← Text.collapse_space hapart, hrest, areApart_space_iff hapart]
        exact ⟨fun h => ⟨fun _ => hapart, h⟩, fun h => h.2⟩
      · refine iff_of_false (fun heq => ?_) fun h => hapart (h.1 rfl)
        have hlonger := Text.length_collapse_space hapart
        have hle := length_told_le (front ++ ' ' :: l.text) ls
        rw [List.append_assoc, List.append_assoc, List.cons_append, List.cons_append, hlonger,
          ← heq] at hle
        omega

/-- **When the text on one line is all texts with spaces between them**: exactly if no plain text
among the explanations runs on from what stands before it. -/
theorem flat_eq_joined_iff (m : Message) :
    m.flat = .ofList (Text.collapse ([' '].intercalate m.texts)) ↔
      AreApart m.heading m.explanations := by
  rw [flat_eq, intercalate_texts, String.ofList_inj, collapse_told_eq_iff]

end ExpectedDiagnostics.Message
