import ExpectedDiagnostics.Proofs.CommentGroup
import ExpectedDiagnostics.Proofs.Expectation
import ExpectedDiagnostics.Proofs.Text.Words

/-!
# Expectations by words

The code is looked for in the text as it stands, before blanks are dropped or collapsed. It has no
blank in it, and only blanks may follow it, so it is always the end of the last word: what is read
depends on nothing but the words. The last word may be more than the code, and what it has in front
of the code belongs to the message.

Main results:

* `parse_eq_ok_iff` — what is read is what the words say.
* `Says.unique` — words say one thing only.
* `parse_words` — when nothing is read, when there is a code, and what the message is.
-/

namespace ExpectedDiagnostics.Expectation

/-! ## What words say -/

/-- The message that words make, if there are any. -/
def messageOfWords (ws : List (List Char)) : Option String :=
  if ws = [] then none else some (Text.joined ws)

/-- The words that are left when a code is taken off the end of the last one. -/
def withoutCode (front : List (List Char)) (last : List Char) : List (List Char) :=
  front ++ if last = [] then [] else [last]

/-- What the words of an annotation say: a code that the last word ends in, and the message that is
left, or a message of all words. -/
inductive Says : List (List Char) → Expectation → Prop
  | code {front : List (List Char)} {last digits : List Char} {e : Expectation}
      (hdigits : IsCode digits) (hcode : e.code = some (Text.number digits : Int))
      (hmessage : e.message = messageOfWords (withoutCode front last)) :
      Says (front ++ [last ++ '(' :: (digits ++ [')'])]) e
  | message {ws : List (List Char)} {e : Expectation} (hne : ws ≠ [])
      (hends : ∀ front last, ws = front ++ [last] → ¬ EndsInCode last) (hcode : e.code = none)
      (hmessage : e.message = some (Text.joined ws)) : Says ws e

theorem eq_of_parts {e f : Expectation} (hmessage : e.message = f.message)
    (hcode : e.code = f.code) : e = f := by
  cases e
  cases f
  cases hmessage
  cases hcode
  rfl

/-- A word ends in one code only. -/
theorem code_unique {a b digits others : List Char} (hdigits : IsCode digits)
    (hothers : IsCode others)
    (h : a ++ '(' :: (digits ++ [')']) = b ++ '(' :: (others ++ [')'])) :
    a = b ∧ Text.number digits = Text.number others := by
  have hsplit : ∀ {before ds : List Char}, IsCode ds →
      splitCode? (before ++ '(' :: (ds ++ [')'])) = some (before, Text.number ds) :=
    fun hds => splitCode?_eq_some_iff.mpr ⟨_, [], hds, Text.allBlank_nil, rfl, rfl⟩
  have hsame : splitCode? (a ++ '(' :: (digits ++ [')'])) = some (a, Text.number digits) :=
    hsplit hdigits
  rw [h, hsplit hothers] at hsame
  obtain ⟨hfront, hnumber⟩ := Prod.mk.inj (Option.some.inj hsame)
  exact ⟨hfront.symm, hnumber.symm⟩

/-- **Words say one thing only.** -/
theorem Says.unique {ws : List (List Char)} {e f : Expectation} (he : Says ws e)
    (hf : Says ws f) : e = f := by
  cases he with
  | @code front last digits _ hdigits hcode hmessage =>
    generalize hws : front ++ [last ++ '(' :: (digits ++ [')'])] = ws at hf
    cases hf with
    | @code front' last' digits' _ hdigits' hcode' hmessage' =>
      obtain ⟨rfl, hlast⟩ := List.append_inj' hws rfl
      obtain ⟨rfl, hnumber⟩ := code_unique hdigits hdigits' (List.cons.inj hlast).1
      exact eq_of_parts (hmessage.trans hmessage'.symm) (by rw [hcode, hcode', hnumber])
    | message _ hends => exact absurd ⟨last, digits, hdigits, rfl⟩ (hends _ _ hws.symm)
  | message hne hends hcode hmessage =>
    cases hf with
    | code hdigits => exact absurd ⟨_, _, hdigits, rfl⟩ (hends _ _ rfl)
    | message _ _ hcode' hmessage' =>
      exact eq_of_parts (hmessage.trans hmessage'.symm) (hcode.trans hcode'.symm)

theorem Says.ne_nil {ws : List (List Char)} {e : Expectation} (h : Says ws e) : ws ≠ [] := by
  cases h with
  | code => simp
  | message hne => exact hne

/-! ## Reading -/

theorem messageOf_eq (cs : List Char) : messageOf cs = messageOfWords (Text.words cs) := by
  unfold messageOf messageOfWords
  split
  · rename_i hnil
    rw [if_pos (Text.words_eq_nil_iff.mpr (Text.tidy_eq_nil_iff.mp hnil))]
  · rename_i hne
    rw [if_neg fun hnil => hne (Text.tidy_eq_nil_iff.mpr (Text.words_eq_nil_iff.mp hnil)),
      Text.ofList_tidy]

/-- A code that is cut off a text is the end of its last word. -/
theorem exists_words_of_splitCode? {cs before : List Char} {n : Nat}
    (h : splitCode? cs = some (before, n)) : ∃ front last digits, IsCode digits ∧
      Text.words cs = front ++ [last ++ '(' :: (digits ++ [')'])] ∧ n = Text.number digits ∧
      Text.words before = withoutCode front last := by
  obtain ⟨digits, blanks, hdigits, hblanks, rfl, rfl⟩ := splitCode?_eq_some_iff.mp h
  have hcode : Text.IsWord ('(' :: (digits ++ [')'])) := ⟨List.cons_ne_nil _ _, hdigits.not_blank⟩
  obtain ⟨front, last, hwords, hbefore⟩ := Text.exists_words_append before hcode
  have hcut : before ++ '(' :: (digits ++ ')' :: blanks) =
      (before ++ '(' :: (digits ++ [')'])) ++ blanks := by
    simp
  refine ⟨front, last, digits, hdigits, ?_, rfl, hbefore⟩
  rw [hcut, Text.words_append_blanks _ hblanks, hwords]

/-- A code at the end of the last word is cut off the text. -/
theorem splitCode?_ne_none {cs last : List Char} {front : List (List Char)}
    (hwords : Text.words cs = front ++ [last]) (hends : EndsInCode last) : splitCode? cs ≠ none := by
  obtain ⟨start, digits, hdigits, rfl⟩ := hends
  obtain ⟨before, blanks, rfl, hblanks, -⟩ := Text.exists_of_words_concat hwords
  have hsplit : splitCode? (before ++ (start ++ '(' :: (digits ++ [')']) ++ blanks)) =
      some (before ++ start, Text.number digits) :=
    splitCode?_eq_some_iff.mpr ⟨digits, blanks, hdigits, hblanks, by simp, rfl⟩
  rw [hsplit]
  exact Option.some_ne_none _

theorem says_of_parse {text : String} {e : Expectation} (h : parse text = .ok e) :
    Says (Text.words text.toList) e := by
  rcases cases_of_parse h with
    ⟨before, n, hsplit, hmessage, hcode⟩ | ⟨m, hnone, hm, hmessage, hcode⟩
  · obtain ⟨front, last, digits, hdigits, hwords, rfl, hbefore⟩ := exists_words_of_splitCode? hsplit
    rw [hwords]
    rw [messageOf_eq, hbefore] at hmessage
    exact .code hdigits hcode hmessage
  · rw [messageOf_eq, messageOfWords] at hm
    split at hm
    · exact nomatch hm
    · rename_i hne
      exact .message hne (fun front last hwords hends => splitCode?_ne_none hwords hends hnone) hcode
        (hmessage.trans hm.symm)

/-- Something is read of every text that has a word. -/
theorem exists_parse {text : String} (h : Text.words text.toList ≠ []) :
    ∃ e, parse text = .ok e := by
  cases hsplit : splitCode? text.toList with
  | some found => exact ⟨_, parse_of_code hsplit⟩
  | none =>
    have hm := messageOf_eq text.toList
    rw [messageOfWords, if_neg h] at hm
    exact ⟨_, parse_of_message hsplit hm⟩

/-- **What is read** of a text is what its words say. -/
theorem parse_eq_ok_iff {text : String} {e : Expectation} :
    parse text = .ok e ↔ Says (Text.words text.toList) e := by
  refine ⟨says_of_parse, fun hsaid => ?_⟩
  obtain ⟨f, hf⟩ := exists_parse hsaid.ne_nil
  rw [hf, hsaid.unique (says_of_parse hf)]

/-- A text without words is all that is refused. -/
theorem parse_eq_error_iff {text : String} :
    parse text = .error (.blankExpectation text Problem.blankReason none) ↔
      Text.words text.toList = [] := by
  constructor
  · intro h
    by_contra hne
    obtain ⟨e, he⟩ := exists_parse hne
    exact nomatch he.symm.trans h
  · intro hnil
    have hno : ∀ e, parse text ≠ .ok e := fun e he => (says_of_parse he).ne_nil hnil
    cases hparse : parse text with
    | ok e => exact absurd hparse (hno e)
    | error p => rw [parse_eq_error hparse]

/-- **Reading depends on the words only.** Of two texts with the same words, both are read as the
same expectation, or both are refused; a text is refused exactly if it has no words. There is a code
exactly if the last word ends in one; the message is then made of the words without it, and
otherwise of all words. -/
theorem parse_words :
    (∀ a b : String, Text.words a.toList = Text.words b.toList →
      (∃ e, parse a = .ok e ∧ parse b = .ok e) ∨
        (parse a = .error (.blankExpectation a Problem.blankReason none) ∧
          parse b = .error (.blankExpectation b Problem.blankReason none))) ∧
      (∀ text : String, (∃ p, parse text = .error p) ↔ Text.words text.toList = []) ∧
      ∀ text e, parse text = .ok e →
        (e.code.isSome = true ↔
          ∃ front last, Text.words text.toList = front ++ [last] ∧ EndsInCode last) ∧
        (∀ front last digits, IsCode digits →
          Text.words text.toList = front ++ [last ++ '(' :: (digits ++ [')'])] →
            e.code = some (Text.number digits : Int) ∧
              e.message = messageOfWords (withoutCode front last)) ∧
        (e.code = none → e.message = some (Text.joined (Text.words text.toList))) := by
  refine ⟨fun a b hsame => ?_, fun text => ?_, fun text e h => ⟨?_, ?_, ?_⟩⟩
  · by_cases hnil : Text.words a.toList = []
    · exact .inr ⟨parse_eq_error_iff.mpr hnil, parse_eq_error_iff.mpr (hsame ▸ hnil)⟩
    · obtain ⟨e, he⟩ := exists_parse hnil
      exact .inl ⟨e, he, parse_eq_ok_iff.mpr (hsame ▸ says_of_parse he)⟩
  · rw [← parse_eq_error_iff]
    exact ⟨fun ⟨p, hp⟩ => by rw [hp, parse_eq_error hp], fun h => ⟨_, h⟩⟩
  · have hsaid := says_of_parse h
    generalize Text.words text.toList = ws at hsaid
    cases hsaid with
    | @code front last digits _ hdigits hcode =>
      rw [hcode]
      exact iff_of_true rfl ⟨front, _, rfl, last, digits, hdigits, rfl⟩
    | message _ hends hcode =>
      rw [hcode]
      refine iff_of_false Bool.false_ne_true ?_
      rintro ⟨front, last, hws, hlast⟩
      exact hends front last hws hlast
  · intro front last digits hdigits hwords
    -- the words say one thing only, so what they say with this code is what is read
    have hf : ∃ f : Expectation, f.code = some (Text.number digits : Int) ∧
        f.message = messageOfWords (withoutCode front last) := ⟨⟨_, _, .inr rfl⟩, rfl, rfl⟩
    obtain ⟨f, hcode, hmessage⟩ := hf
    have hsaid := says_of_parse h
    rw [hwords] at hsaid
    rw [hsaid.unique (.code hdigits hcode hmessage)]
    exact ⟨hcode, hmessage⟩
  · intro hnone
    have hsaid := says_of_parse h
    generalize Text.words text.toList = ws at hsaid
    cases hsaid with
    | code _ hcode => exact nomatch hcode.symm.trans hnone
    | message _ _ _ hmessage => exact hmessage

/-- Two texts with the same words, one with blanks of several kinds. -/
def spacedText : String := " Foo\u2003is\n(3)(12)\u00A0\t"

def plainText : String := "Foo is (3)(12)"

/-- Of two codes in one word only the last one is cut off, and the other stays with the message. -/
theorem parse_words_spaced :
    Text.words spacedText.toList = Text.words plainText.toList ∧
      Text.words plainText.toList =
        ["Foo".toList, "is".toList] ++ ["(3)".toList ++ '(' :: ("12".toList ++ [')'])] ∧
      ∃ e, parse spacedText = .ok e ∧ parse plainText = .ok e ∧ e.code = some 12 ∧
        e.message = some "Foo is (3)" := by
  have hsame : Text.words spacedText.toList = Text.words plainText.toList := by decide
  have hwords : Text.words plainText.toList =
      ["Foo".toList, "is".toList] ++ ["(3)".toList ++ '(' :: ("12".toList ++ [')'])] := by decide
  have hdigits : IsCode "12".toList := ⟨by decide, List.all_iff_forall_prop.mp (by decide)⟩
  obtain ⟨hcongr, hrefused, hparts⟩ := parse_words
  refine ⟨hsame, hwords, ?_⟩
  rcases hcongr spacedText plainText hsame with ⟨e, hspaced, hplain⟩ | ⟨-, hplain⟩
  · obtain ⟨hcode, hmessage⟩ := (hparts _ e hplain).2.1 _ _ _ hdigits hwords
    exact ⟨e, hspaced, hplain, hcode, hmessage⟩
  · exact absurd ((hrefused plainText).mp ⟨_, hplain⟩) (by decide)

end ExpectedDiagnostics.Expectation
