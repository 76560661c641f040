import ExpectedDiagnostics.Message
import ExpectedDiagnostics.Proofs.Text.Words

/-!
# Blanks in messages

Only its words, and whether there are blanks around them, are left of a text that is collapsed. What
is left has nothing more to be collapsed, and it stands for the text wherever the text is put: the
runs of blanks that arise where two texts meet come out the same. So the text of a message on one
line does not depend on how blanks are written in it, however deep they stand.

Main results:

* `collapse_append_collapse` — texts can be collapsed before they are put together.
* `flat_modifyAt` — a text of a message may be replaced by one with the same collapsed form.
* `collapse_normalizes` — the whole of it, with the words of a text as its normal form.
-/

namespace ExpectedDiagnostics

/-! ## Texts -/

namespace Text

theorem collapse_collapse (cs : List Char) : collapse (collapse cs) = collapse cs :=
  collapse_of_isInfix (List.infix_refl _)

/-- Blanks at the front can be dropped before the text is collapsed, or afterwards. -/
theorem stripLeft_collapse (cs : List Char) :
    stripLeft (collapse cs) = collapse (stripLeft cs) := by
  induction cs with
  | nil => rfl
  | cons c cs ih =>
    by_cases hc : isBlank c = true
    · have hleft : stripLeft (c :: cs) = stripLeft cs := List.dropWhile_cons_of_pos hc
      rw [hleft, collapse_cons_blank hc, ← ih]
      -- the space of this run is dropped as well, if there is one
      split
      · rfl
      · exact List.dropWhile_cons_of_pos isBlank_space
    · have hleft : ∀ ds, stripLeft (c :: ds) = c :: ds := fun ds => List.dropWhile_cons_of_neg hc
      rw [collapse, if_neg hc, hleft, hleft, collapse, if_neg hc]

theorem strip_collapse (cs : List Char) : strip (collapse cs) = collapse (strip cs) := by
  unfold strip
  rw [stripLeft_collapse, stripRight_collapse]

/-- What stands before a text counts by its collapsed form. -/
theorem collapse_collapse_append (xs ys : List Char) :
    collapse (collapse xs ++ ys) = collapse (xs ++ ys) := by
  induction xs with
  | nil => rfl
  | cons x xs ih =>
    -- what comes next is a blank in the one text exactly if it is in the other
    have hstart : startsBlank (collapse xs ++ ys) = startsBlank (xs ++ ys) := startsBlank_congr ih
    by_cases hx : isBlank x = true
    · rw [collapse_cons_blank hx, List.cons_append, collapse_cons_blank hx]
      split
      · rename_i hxs
        have hfront : startsBlank (xs ++ ys) = true := by
          cases xs with
          | nil => exact absurd hxs Bool.false_ne_true
          | cons y xs => exact hxs
        rw [ih, if_pos hfront]
      · rw [List.cons_append, collapse_cons_blank isBlank_space, hstart, ih]
    · rw [collapse, if_neg hx, List.cons_append, List.cons_append, collapse, if_neg hx, collapse,
        if_neg hx, ih]

/-- **Texts can be collapsed before they are put together.** -/
theorem collapse_append_collapse (xs ys : List Char) :
    collapse (collapse xs ++ collapse ys) = collapse (xs ++ ys) := by
  rw [collapse_append_congr (collapse xs) (collapse_collapse ys), collapse_collapse_append]

theorem collapse_append_congr₂ {xs xs' ys ys' : List Char} (hxs : collapse xs = collapse xs')
    (hys : collapse ys = collapse ys') : collapse (xs ++ ys) = collapse (xs' ++ ys') := by
  rw [← collapse_append_collapse xs, hxs, hys, collapse_append_collapse]

end Text

/-! ## Messages -/

namespace Message

/-- The message with another text at a position: the position is told by the number of the
explanation to go to at each level, and nothing is changed if there is none. -/
def modifyAt (f : String → String) : List Nat → Message → Message
  | [], text s => text (f s)
  | [], chain head next => chain (f head) next
  | _ :: _, text s => text s
  | i :: position, chain head next => chain head (next.modify i (modifyAt f position))

/-- A text with every run of blanks written as one space. -/
def collapsed (s : String) : String :=
  .ofList (Text.collapse s.toList)

theorem toList_flatten_chain (indent : Int) (head : String) (next : List Message) :
    (flatten "\n" indent (.chain head next)).toList =
      (separator "\n" indent).toList ++ head.toList ++
        (flattenAll "\n" (indent + 1) next).toList := by
  rw [flatten, Wording.ofString_eq, String.toList_append, String.toList_append]

/-- Changing one of several messages to one that is collapsed to the same. -/
theorem collapse_flattenAll_modify {g : Message → Message} {indent : Int}
    (hg : ∀ m, Text.collapse (flatten "\n" indent (g m)).toList =
      Text.collapse (flatten "\n" indent m).toList) (i : Nat) (ms : List Message) :
    Text.collapse (flattenAll "\n" indent (ms.modify i g)).toList =
      Text.collapse (flattenAll "\n" indent ms).toList := by
  induction ms generalizing i with
  | nil => rw [List.modify_nil]
  | cons m ms ih =>
    cases i with
    | zero =>
      rw [List.modify_zero_cons, flattenAll, flattenAll, String.toList_append,
        String.toList_append]
      exact Text.collapse_append_congr₂ (hg m) rfl
    | succ i =>
      rw [List.modify_succ_cons, flattenAll, flattenAll, String.toList_append,
        String.toList_append]
      exact Text.collapse_append_congr₂ rfl (ih i)

variable {f : String → String}

theorem collapse_flatten_modifyAt
    (hf : ∀ s, Text.collapse (f s).toList = Text.collapse s.toList) (position : List Nat)
    (m : Message) (indent : Int) :
    Text.collapse (flatten "\n" indent (m.modifyAt f position)).toList =
      Text.collapse (flatten "\n" indent m).toList := by
  -- each level of the position is one level of indentation, so both the message and the
  -- indentation vary
  induction position generalizing m indent with
  | nil =>
    cases m with
    | text s => exact hf s
    | chain head next =>
      rw [modifyAt, toList_flatten_chain, toList_flatten_chain]
      exact Text.collapse_append_congr₂ (Text.collapse_append_congr _ (hf head)) rfl
  | cons i position ih =>
    cases m with
    | text s => rfl
    | chain head next =>
      have hnext := collapse_flattenAll_modify (fun m => ih m (indent + 1)) i next
      rw [modifyAt, toList_flatten_chain, toList_flatten_chain]
      exact Text.collapse_append_congr₂ rfl hnext

/-- **How blanks are written in a message** makes no difference to its text on one line. -/
theorem flat_modifyAt (hf : ∀ s, Text.collapse (f s).toList = Text.collapse s.toList)
    (position : List Nat) (m : Message) : (m.modifyAt f position).flat = m.flat := by
  rw [flat, flat, Wording.collapse_eq, Wording.collapse_eq, collapse_flatten_modifyAt hf]

theorem collapse_collapsed (s : String) :
    Text.collapse (collapsed s).toList = Text.collapse s.toList := by
  unfold collapsed
  rw [String.toList_ofList, Text.collapse_collapse]

end Message

namespace Text

/-- **Collapsing is a normal form, told by words.** Stripped and collapsed, a text is its words with
a space between each two of them. Collapsing a second time changes nothing, and it makes no
difference whether a text is stripped before or afterwards, nor whether texts are collapsed before
they are put together. The text of a message on one line stays the same if any text in the message,
at whatever depth, is replaced by its collapsed form. -/
theorem collapse_normalizes :
    (∀ cs, collapse (strip cs) = [' '].intercalate (words cs)) ∧
      (∀ cs, collapse (collapse cs) = collapse cs) ∧
      (∀ cs, collapse (strip cs) = strip (collapse cs)) ∧
      (∀ xs ys, collapse (xs ++ ys) = collapse (collapse xs ++ collapse ys)) ∧
      ∀ (m : Message) (position : List Nat),
        (m.modifyAt Message.collapsed position).flat = m.flat := by
  refine ⟨?_, collapse_collapse, fun cs => (strip_collapse cs).symm,
    fun xs ys => (collapse_append_collapse xs ys).symm, ?_⟩
  · exact tidy_eq_intercalate_words
  · intro m position
    exact Message.flat_modifyAt Message.collapse_collapsed position m

end Text

end ExpectedDiagnostics
