import ExpectedDiagnostics.Proofs.Text.Joined

/-!
# Words

The words of a text are what its blanks leave of it. Which blanks they are does not matter, nor how
many stand in a row, so a text and its tidied form have the same words. A tidy text is its words
with a space between each two of them, so tidying a text is joining its words.

Main results:

* `words_append` — a text that is cut next to a blank has the words of the two parts.
* `words_eq_iff` — which words a text is cut into.
* `tidy_eq_intercalate_words` — tidying is joining the words by single spaces.
* `exists_words_append` — what becomes of the last word of a text that a word is put behind.
-/

namespace ExpectedDiagnostics.Text

/-- A word is not empty, and has no blank. -/
structure IsWord (w : List Char) : Prop where
  nonempty : w ≠ []
  notBlank : ∀ c ∈ w, isBlank c = false

/-! ## Cutting -/

theorem words_cons_blank {c : Char} (hc : isBlank c = true) (cs : List Char) :
    words (c :: cs) = words cs := by
  rw [words, if_pos hc]

/-- A text that begins with a character that is no blank has a word, and the character is its first
one. -/
theorem exists_words_cons {c : Char} (hc : isBlank c = false) (cs : List Char) :
    ∃ w ws, words (c :: cs) = (c :: w) :: ws := by
  rw [words, if_neg (Bool.eq_false_iff.mp hc)]
  split
  · exact ⟨[], words cs, rfl⟩
  · split
    · exact ⟨[], [], rfl⟩
    · rename_i w ws _
      exact ⟨w, ws, rfl⟩

/-- A text has a word unless it is blank. -/
theorem words_eq_nil_iff {cs : List Char} : words cs = [] ↔ AllBlank cs := by
  induction cs with
  | nil => exact iff_of_true rfl allBlank_nil
  | cons c cs ih =>
    unfold AllBlank
    rw [List.forall_mem_cons]
    by_cases hc : isBlank c = true
    · rw [words_cons_blank hc, and_iff_right hc, ih]
      rfl
    · obtain ⟨w, ws, hwords⟩ := exists_words_cons (Bool.eq_false_iff.mpr hc) cs
      rw [hwords]
      exact iff_of_false (List.cons_ne_nil _ _) fun hall => hc hall.1

/-- A text in front of which another one can be cut off without a word being cut in two. -/
def BeginsApart (cs : List Char) : Prop :=
  cs = [] ∨ startsBlank cs = true

instance (cs : List Char) : Decidable (BeginsApart cs) :=
  inferInstanceAs (Decidable (_ ∨ _))

theorem AllBlank.beginsApart {cs : List Char} (h : AllBlank cs) : BeginsApart cs := by
  cases cs with
  | nil => exact .inl rfl
  | cons c cs => exact .inr (h c List.mem_cons_self)

/-- **A text that is cut in front of a blank** has the words of the two parts. -/
theorem words_append (xs : List Char) {ys : List Char} (h : BeginsApart ys) :
    words (xs ++ ys) = words xs ++ words ys := by
  induction xs with
  | nil => rfl
  | cons x xs ih =>
    rw [List.cons_append]
    by_cases hx : isBlank x = true
    · rw [words_cons_blank hx, words_cons_blank hx, ih]
    · rw [words, words, if_neg hx, if_neg hx, ih]
      cases xs with
      | nil =>
        -- a word of one character, since a blank comes next, or nothing
        rcases h with rfl | hstart
        · rfl
        · rw [List.nil_append, if_pos hstart]
          rfl
      | cons d xs =>
        have hstart : startsBlank (d :: xs ++ ys) = startsBlank (d :: xs) := rfl
        rw [hstart]
        split
        · rfl
        · rename_i hd
          obtain ⟨w, ws, hwords⟩ := exists_words_cons (Bool.eq_false_iff.mpr hd) xs
          rw [hwords]
          rfl

theorem words_append_blanks (cs : List Char) {blanks : List Char} (h : AllBlank blanks) :
    words (cs ++ blanks) = words cs := by
  rw [words_append cs h.beginsApart, words_eq_nil_iff.mpr h, List.append_nil]

theorem words_blanks_append {blanks : List Char} (h : AllBlank blanks) (cs : List Char) :
    words (blanks ++ cs) = words cs := by
  induction blanks with
  | nil => rfl
  | cons b blanks ih =>
    rw [List.cons_append, words_cons_blank (h b List.mem_cons_self)]
    exact ih fun c hc => h c (List.mem_cons_of_mem _ hc)

/-- A text that is cut behind a blank has the words of the two parts, too. -/
theorem words_append_of_endsBlank {xs : List Char} (h : xs = [] ∨ endsBlank xs = true)
    (ys : List Char) : words (xs ++ ys) = words xs ++ words ys := by
  rcases List.eq_nil_or_concat xs with rfl | ⟨front, last, rfl⟩
  · rfl
  · rw [List.concat_eq_append] at h ⊢
    have hlast : isBlank last = true := by
      have hend := h.resolve_left (by simp)
      rwa [endsBlank, List.getLast?_concat] at hend
    have hback : BeginsApart (last :: ys) := .inr hlast
    have hone : AllBlank [last] := List.forall_mem_singleton.mpr hlast
    rw [List.append_assoc, List.singleton_append, words_append front hback, words_cons_blank hlast,
      words_append_blanks front hone]

theorem words_of_isWord {w : List Char} (h : IsWord w) : words w = [w] := by
  obtain ⟨hne, hblank⟩ := h
  induction w with
  | nil => exact absurd rfl hne
  | cons c w ih =>
    have hc := Bool.eq_false_iff.mp (hblank c List.mem_cons_self)
    cases w with
    | nil =>
      rw [words, if_neg hc]
      rfl
    | cons d w =>
      have hrest := ih (List.cons_ne_nil _ _) fun x hx => hblank x (List.mem_cons_of_mem _ hx)
      have hd : ¬ startsBlank (d :: w) = true :=
        Bool.eq_false_iff.mp (hblank d (List.mem_cons_of_mem _ List.mem_cons_self))
      rw [words, if_neg hc, if_neg hd, hrest]

/-! ## Which texts are words -/

theorem isWord_cons {c : Char} (hc : isBlank c = false) {w : List Char} (h : IsWord w) :
    IsWord (c :: w) where
  nonempty := List.cons_ne_nil _ _
  notBlank := List.forall_mem_cons.mpr ⟨hc, h.notBlank⟩

theorem isWord_singleton {c : Char} (hc : isBlank c = false) : IsWord [c] where
  nonempty := List.cons_ne_nil _ _
  notBlank := List.forall_mem_singleton.mpr hc

/-- The text is these words, with blanks around them and between each two of them. -/
inductive Renders : List (List Char) → List Char → Prop
  | none {blanks : List Char} (hblanks : AllBlank blanks) : Renders [] blanks
  | word {front w rest : List Char} {ws : List (List Char)} (hfront : AllBlank front)
      (hword : IsWord w) (hapart : BeginsApart rest) (hrest : Renders ws rest) :
      Renders (w :: ws) (front ++ (w ++ rest))

/-- A text is its words, with blanks around and between them. -/
theorem renders_words (cs : List Char) : Renders (words cs) cs := by
  induction cs with
  | nil => exact .none allBlank_nil
  | cons c cs ih =>
    rw [words]
    split
    -- a blank goes to those in front
    · rename_i hc
      generalize words cs = ws at ih
      cases ih with
      | none hblanks => exact .none (List.forall_mem_cons.mpr ⟨hc, hblanks⟩)
      | word hfront hword hapart hrest =>
        exact .word (List.forall_mem_cons.mpr ⟨hc, hfront⟩) hword hapart hrest
    · rename_i hc
      rw [Bool.not_eq_true] at hc
      split
      · rename_i hstart
        exact .word allBlank_nil (isWord_singleton hc) (.inr hstart) ih
      · rename_i hstart
        rw [Bool.not_eq_true] at hstart
        generalize words cs = ws at ih
        cases ih with
        | none hblanks =>
          obtain rfl : cs = [] := hblanks.beginsApart.resolve_right (Bool.eq_false_iff.mp hstart)
          exact .word allBlank_nil (isWord_singleton hc) (.inl rfl) (.none allBlank_nil)
        -- any other character goes to the word that begins behind it
        | @word front w rest ws hfront hword hapart hrest =>
          cases front with
          | nil => exact .word allBlank_nil (isWord_cons hc hword) hapart hrest
          | cons b front =>
            exact absurd (hfront b List.mem_cons_self) (Bool.eq_false_iff.mp hstart)

/-- **The words of a text** are those that it is, with blanks around and between them. -/
theorem words_eq_iff {cs : List Char} {ws : List (List Char)} : words cs = ws ↔ Renders ws cs := by
  constructor
  · rintro rfl
    exact renders_words cs
  · intro h
    induction h with
    | none hblanks => exact words_eq_nil_iff.mpr hblanks
    | @word front w rest ws hfront hword hapart _ ih =>
      rw [words_blanks_append hfront, words_append w hapart, words_of_isWord hword, ih]
      rfl

/-! ## Tidying -/

theorem words_strip (cs : List Char) : words (strip cs) = words cs := by
  obtain ⟨front, back, hcut, hfront, hback, -⟩ := exists_strip cs
  have hwords := congrArg words hcut
  rw [words_blanks_append hfront, words_append_blanks _ hback] at hwords
  exact hwords.symm

theorem endsBlank_cons {c : Char} {cs : List Char} (h : cs ≠ []) :
    endsBlank (c :: cs) = endsBlank cs := by
  rw [← List.singleton_append, endsBlank_append h]

/-- A text that does not end with a blank is not blank, unless it is empty. -/
theorem words_ne_nil {cs : List Char} (hne : cs ≠ []) (hend : endsBlank cs = false) :
    words cs ≠ [] := by
  rw [Ne, words_eq_nil_iff]
  intro hall
  obtain ⟨front, last, rfl⟩ : ∃ front last, cs = front ++ [last] :=
    ⟨_, _, (List.dropLast_append_getLast hne).symm⟩
  rw [endsBlank, List.getLast?_concat, Option.any_some] at hend
  have hlast := hall last (List.mem_append_right _ List.mem_cons_self)
  exact absurd hlast (Bool.eq_false_iff.mp hend)

/-- A text that does not end with a blank is collapsed to its words with a space between each two of
them, and a space in front if there was a blank. -/
theorem collapse_eq_intercalate_words {cs : List Char} (hend : endsBlank cs = false) :
    collapse cs = (if startsBlank cs then [' '] else []) ++ [' '].intercalate (words cs) := by
  induction cs with
  | nil => rfl
  | cons c cs ih =>
    by_cases hc : isBlank c = true
    -- the blank is not the last character, so it is lost or comes to the space in front
    · have hne : cs ≠ [] := by
        rintro rfl
        exact absurd hc (Bool.eq_false_iff.mp hend)
      rw [endsBlank_cons hne] at hend
      have hstart : startsBlank (c :: cs) = true := hc
      rw [collapse_cons_blank hc, words_cons_blank hc, ih hend, if_pos hstart]
      split
      · rfl
      · rfl
    · have hstart : ¬ startsBlank (c :: cs) = true := hc
      rw [collapse, words, if_neg hc, if_neg hc, if_neg hstart, List.nil_append]
      cases cs with
      | nil => rfl
      | cons d cs =>
        rw [endsBlank_cons (List.cons_ne_nil _ _)] at hend
        have hne := words_ne_nil (List.cons_ne_nil _ _) hend
        obtain ⟨w, ws, hwords⟩ := List.exists_cons_of_ne_nil hne
        rw [ih hend, hwords]
        -- either the character is a word of its own, or it begins the word that comes next
        split
        · rw [List.intercalate_cons_cons]
          rfl
        · cases ws with
          | nil => rw [List.intercalate_singleton, List.intercalate_singleton, List.nil_append]
          | cons next ws =>
            rw [List.intercalate_cons_cons, List.intercalate_cons_cons]
            rfl

theorem IsStripped.endsBlank_eq {cs : List Char} (h : IsStripped cs) : endsBlank cs = false := by
  unfold endsBlank
  cases hlast : cs.getLast? with
  | none => rfl
  | some c => exact h.back c hlast

/-- **Tidying is joining the words.** -/
theorem tidy_eq_intercalate_words (cs : List Char) : tidy cs = [' '].intercalate (words cs) := by
  have hstripped := isStripped_strip cs
  have hstart : ¬ startsBlank (strip cs) = true := Bool.eq_false_iff.mp hstripped.startsBlank_eq
  rw [tidy, collapse_eq_intercalate_words hstripped.endsBlank_eq, if_neg hstart, List.nil_append,
    words_strip]

/-- The text of words with a space between each two of them. -/
def joined (ws : List (List Char)) : String :=
  .ofList ([' '].intercalate ws)

theorem ofList_tidy (cs : List Char) : String.ofList (tidy cs) = joined (words cs) := by
  rw [tidy_eq_intercalate_words]
  rfl

/-! ## The last word -/

/-- A text is cut behind its last blank, and what is left is the last word, or nothing. -/
theorem exists_last_word (cs : List Char) : ∃ front last, cs = front ++ last ∧
    (front = [] ∨ endsBlank front = true) ∧ ∀ c ∈ last, isBlank c = false := by
  induction cs using List.reverseRecOn with
  | nil => exact ⟨[], [], rfl, .inl rfl, fun c hc => absurd hc List.not_mem_nil⟩
  | append_singleton cs c ih =>
    by_cases hc : isBlank c = true
    · refine ⟨cs ++ [c], [], (List.append_nil _).symm, .inr ?_, fun d hd =>
        absurd hd List.not_mem_nil⟩
      rwa [endsBlank, List.getLast?_concat]
    · obtain ⟨front, last, rfl, hfront, hlast⟩ := ih
      refine ⟨front, last ++ [c], List.append_assoc _ _ _, hfront, ?_⟩
      intro d hd
      rcases List.mem_append.mp hd with hd | hd
      · exact hlast d hd
      · rw [List.mem_singleton.mp hd]
        exact Bool.eq_false_iff.mpr hc

/-- The last word of a text has only blanks behind it. -/
theorem exists_of_words_concat {cs last : List Char} {front : List (List Char)}
    (h : words cs = front ++ [last]) :
    ∃ before blanks, cs = before ++ (last ++ blanks) ∧ AllBlank blanks ∧ words before = front := by
  obtain ⟨blanks, hcut, hblanks, hend⟩ := exists_stripRight cs
  obtain ⟨before, w, hsplit, hbefore, hw⟩ := exists_last_word (stripRight cs)
  have hwords : words before ++ words w = front ++ [last] := by
    rw [← words_append_of_endsBlank hbefore, ← hsplit, ← words_append_blanks _ hblanks, ← hcut, h]
  cases w with
  | nil =>
    -- then nothing is left in front of the blanks, since it would end with a blank
    rw [List.append_nil] at hsplit
    rcases hbefore with rfl | hbefore
    · exact absurd hwords (by simp [words])
    · rw [endsBlank, ← hsplit, Option.any_eq_true] at hbefore
      obtain ⟨c, hc, hblank⟩ := hbefore
      exact absurd hblank (Bool.eq_false_iff.mp (hend c hc))
  | cons c w =>
    rw [words_of_isWord ⟨List.cons_ne_nil _ _, hw⟩] at hwords
    obtain ⟨hfront, hlast⟩ := List.append_inj' hwords rfl
    refine ⟨before, blanks, ?_, hblanks, hfront⟩
    rw [← (List.cons.inj hlast).1, ← List.append_assoc, ← hsplit]
    exact hcut

/-- Characters without a blank that are put behind a text go to its last word, if it does not end
with a blank, and are a word of their own if it does. -/
theorem exists_words_append (before : List Char) {w : List Char} (hw : IsWord w) :
    ∃ front last, words (before ++ w) = front ++ [last ++ w] ∧
      words before = front ++ if last = [] then [] else [last] := by
  obtain ⟨front, last, rfl, hfront, hlast⟩ := exists_last_word before
  have hjoined : IsWord (last ++ w) := by
    refine ⟨List.append_ne_nil_of_right_ne_nil _ hw.nonempty, ?_⟩
    intro c hc
    exact (List.mem_append.mp hc).elim (hlast c) (hw.notBlank c)
  refine ⟨words front, last, ?_, ?_⟩
  · rw [List.append_assoc, words_append_of_endsBlank hfront, words_of_isWord hjoined]
  · rw [words_append_of_endsBlank hfront]
    split
    · rename_i hnil
      rw [hnil]
      rfl
    · rename_i hne
      rw [words_of_isWord ⟨hne, hlast⟩]

end ExpectedDiagnostics.Text
