import ExpectedDiagnostics.Proofs.Expectation.Matching
import ExpectedDiagnostics.Proofs.Outcome

/-!
# Diagnostics and their own display

A diagnostic is shown as its message and its code, and what is shown can be read as an expectation.
Reading strips the message, which is on one line already but was not stripped before. So the code
fits and a blank message does not matter, and of the others those fit that have no blanks at their
ends, and those with an ellipsis at their end, unless the blanks in front of them are missed.

Main results:

* `messageFits_strip_iff` — whether a text on one line fits what stripping makes of it.
* `exists_parse_display` — the display of a diagnostic with a code that is not negative can always
  be read, and has the code of the diagnostic.
* `claim_display_iff` — when an annotation with the display of a diagnostic accepts the diagnostic.
-/

namespace ExpectedDiagnostics

/-! ## Collapsed texts -/

namespace Text

theorem strip_eq_self_iff {cs : List Char} : strip cs = cs ↔ IsStripped cs := by
  constructor
  · intro h
    rw [← h]
    exact isStripped_strip cs
  · exact IsStripped.strip_eq

instance (cs : List Char) : Decidable (IsStripped cs) :=
  decidable_of_iff _ strip_eq_self_iff

end Text

/-! ## Messages with an ellipsis -/

namespace Expectation

/-- What a text on one line has to be like so that its display is read as an expectation that
accepts it. -/
def AcceptsItself (cs : List Char) : Prop :=
  Text.AllBlank cs ∨ Text.IsStripped cs ∨
    ellipsis <:+ Text.strip cs ∧ (Text.startsBlank cs = false ∨ Text.strip cs = ellipsis)

instance (cs : List Char) : Decidable (AcceptsItself cs) :=
  inferInstanceAs (Decidable (_ ∨ _ ∨ _ ∧ (_ ∨ _)))

/-- The beginning of a stripped text that is more than an ellipsis is missed behind a blank. -/
theorem not_stripRight_isPrefix {cs front : List Char} (hblank : Text.startsBlank cs = true)
    (hstripped : Text.IsStripped (front ++ ellipsis)) (hfront : front ≠ []) :
    ¬ Text.stripRight front <+: cs := by
  obtain ⟨back, hcut, hback, -⟩ := Text.exists_stripRight front
  rintro ⟨rest, rfl⟩
  cases hleft : Text.stripRight front with
  | nil =>
    -- then the beginning is blank, but a stripped text begins with no blank
    rw [hleft, List.nil_append] at hcut
    subst hcut
    obtain ⟨c, front, rfl⟩ := List.exists_cons_of_ne_nil hfront
    have hc : Text.isBlank c = false := hstripped.front c rfl
    rw [hback c List.mem_cons_self] at hc
    exact absurd hc.symm Bool.false_ne_true
  | cons c left =>
    rw [hleft] at hcut hblank
    have hc : Text.isBlank c = false := by
      refine hstripped.front c ?_
      rw [hcut]
      rfl
    have hblank' : Text.isBlank c = true := hblank
    exact absurd hblank' (Bool.eq_false_iff.mp hc)

/-- **A text on one line and what stripping makes of it.** -/
theorem messageFits_strip_iff {m actual : String} (hm : m.toList = Text.strip actual.toList)
    (hnonblank : ¬ Text.AllBlank actual.toList) :
    messageFits m actual = true ↔ AcceptsItself actual.toList := by
  unfold AcceptsItself
  rw [or_iff_right hnonblank]
  by_cases hends : ellipsis <:+ m.toList
  · obtain ⟨front, hfront⟩ := hends
    rw [messageFits_append_iff hfront.symm, ← hm]
    have hstripped := Text.isStripped_strip actual.toList
    rw [← hm, ← hfront] at hstripped
    cases hstart : Text.startsBlank actual.toList with
    | false =>
      -- nothing is missed, since the beginning of the message is that of the text
      refine iff_of_true ?_ (.inr ⟨⟨front, hfront⟩, .inl rfl⟩)
      obtain ⟨back, hback, -, -⟩ := Text.exists_stripRight front
      have hbegins : Text.stripRight front <+: m.toList := by
        refine ⟨back ++ ellipsis, ?_⟩
        rw [← List.append_assoc, ← hback, hfront]
      rw [hm] at hbegins
      exact hbegins.trans (Text.strip_isPrefix hstart)
    | true =>
      have hpadded : ¬ Text.IsStripped actual.toList := by
        intro h
        rw [h.startsBlank_eq] at hstart
        exact absurd hstart Bool.false_ne_true
      by_cases hnil : front = []
      · -- an ellipsis alone is the beginning of anything
        subst hnil
        exact iff_of_true List.nil_prefix (.inr ⟨⟨[], hfront⟩, .inr hfront.symm⟩)
      · refine iff_of_false (not_stripRight_isPrefix hstart hstripped hnil) ?_
        rintro (hstripped | ⟨-, hno | honly⟩)
        · exact hpadded hstripped
        · exact absurd hno Bool.true_eq_false.mp
        · rw [← hfront] at honly
          exact hnil (List.append_left_eq_self.mp honly)
  · -- without an ellipsis the text has to be what is left of it
    rw [messageFits_iff_eq hends, ← String.toList_inj, hm, Text.strip_eq_self_iff]
    rw [hm] at hends
    constructor
    · exact .inl
    · rintro (hstripped | ⟨hsuffix, -⟩)
      · exact hstripped
      · exact absurd hsuffix hends

end Expectation

/-! ## The display of a diagnostic -/

namespace Diagnostic

theorem toList_display {d : Diagnostic} {n : Nat} (hn : d.code = n) :
    d.display.toList = (d.flat.toList ++ [' ']) ++ Expectation.codeText n := by
  have hopen : (" (").toList = [' ', '('] := rfl
  have hclose : (")").toList = [')'] := rfl
  unfold display Expectation.codeText
  rw [hn, String.toList_append, String.toList_append, String.toList_append,
    toList_toString_natCast, hopen, hclose]
  simp

/-- **The display of a diagnostic can be read.** -/
theorem exists_parse_display (d : Diagnostic) (hcode : 0 ≤ d.code) :
    ∃ e, Expectation.parse d.display = .ok e ∧
      e.message = Expectation.messageOf d.flat.toList ∧ e.code = some d.code := by
  obtain ⟨n, hn⟩ := Int.eq_ofNat_of_zero_le hcode
  -- the code that is cut off is the one at the end, whatever the message ends in
  have hsplit : Expectation.splitCode? d.display.toList = some (d.flat.toList ++ [' '], n) := by
    rw [toList_display hn]
    exact Expectation.splitCode?_codeText _ n
  obtain ⟨e, hparse, hmessage, hsame⟩ := Expectation.exists_parse_of_code hsplit
  rw [Expectation.messageOf_append_blanks Text.allBlank_singleton] at hmessage
  rw [← hn] at hsame
  exact ⟨e, hparse, hmessage, hsame⟩

/-- The message on one line is tidied by stripping it. -/
theorem tidy_flat (d : Diagnostic) : Text.tidy d.flat.toList = Text.strip d.flat.toList := by
  rw [flat, Message.flat, Wording.collapse_eq, String.toList_ofList]
  exact Text.tidy_collapse _

/-- An expectation with the message and the code of a diagnostic accepts it exactly if the message
is one that accepts itself. -/
theorem accepts_flat_iff {d : Diagnostic} {e : Expectation}
    (hmessage : e.message = Expectation.messageOf d.flat.toList) (hcode : e.code = some d.code) :
    e.accepts d.flat (some d.code) = true ↔ Expectation.AcceptsItself d.flat.toList := by
  have hsame : (e.code.isNone || e.code == some d.code) = true := by
    rw [hcode, beq_self_eq_true, Bool.or_true]
  unfold Expectation.accepts
  rw [hsame, Bool.true_and, hmessage]
  cases hm : Expectation.messageOf d.flat.toList with
  | none => exact iff_of_true rfl (.inl (Expectation.messageOf_eq_none_iff.mp hm))
  | some m =>
    have htext : m.toList = Text.strip d.flat.toList := by
      rw [(Expectation.messageOf_eq_some_iff.mp hm).2, tidy_flat]
    have hnonblank : ¬ Text.AllBlank d.flat.toList := by
      intro hblank
      rw [Expectation.messageOf_eq_none_iff.mpr hblank] at hm
      exact nomatch hm
    exact Expectation.messageFits_strip_iff htext hnonblank

/-- **When a diagnostic accepts its own display.** The display of a diagnostic can always be read,
and an annotation that says it holds for the diagnostic on its line exactly if the message on one
line is blank, has no blanks at its ends, or ends in an ellipsis, with no blank in front unless the
ellipsis is all there is. -/
theorem claim_display_iff (d : Diagnostic) (hcode : 0 ≤ d.code) :
    ∃ e, Expectation.parse d.display = .ok e ∧ ∀ line (ix : LineIndex), ix.on line = [d] →
      ((Outcome.claim e line ix).1.ok = true ↔ Expectation.AcceptsItself d.flat.toList) := by
  obtain ⟨e, hparse, hmessage, hsame⟩ := exists_parse_display d hcode
  refine ⟨e, hparse, ?_⟩
  intro line ix hon
  rw [Outcome.claim_eq, hon]
  exact accepts_flat_iff hmessage hsame

/-- A diagnostic with a text for a message. -/
def saying (text : String) : Diagnostic :=
  ⟨none, 5, .text text, 1, 0, "error"⟩

/-- A blank behind an ellipsis does not matter, and one in front of a message does. -/
theorem claim_display_saying :
    (∃ e, Expectation.parse (saying "See\n  (2) [...] ").display = .ok e ∧
        ∀ line (ix : LineIndex), ix.on line = [saying "See\n  (2) [...] "] →
          (Outcome.claim e line ix).1.ok = true) ∧
      ∃ e, Expectation.parse (saying " Foo").display = .ok e ∧
        ∀ line (ix : LineIndex), ix.on line = [saying " Foo"] →
          (Outcome.claim e line ix).1.ok = false := by
  obtain ⟨see, hsee, hseeClaims⟩ := claim_display_iff (saying "See\n  (2) [...] ") (by decide)
  obtain ⟨foo, hfoo, hfooClaims⟩ := claim_display_iff (saying " Foo") (by decide)
  have hself : Expectation.AcceptsItself (saying "See\n  (2) [...] ").flat.toList := by
    decide
  have hno : ¬ Expectation.AcceptsItself (saying " Foo").flat.toList := by decide
  refine ⟨⟨see, hsee, ?_⟩, foo, hfoo, ?_⟩
  · intro line ix hon
    exact (hseeClaims line ix hon).mpr hself
  · intro line ix hon
    rw [Bool.eq_false_iff, Ne, hfooClaims line ix hon]
    exact hno

/-- The display of a message with a blank in front is read without the blank, and is then not what
the diagnostic on the line says. -/
theorem padded_rejects_own_display :
    0 ≤ (saying " Foo").code ∧ (LineIndex.ofList [saying " Foo"]).on 5 = [saying " Foo"] ∧
      Expectation.parse (saying " Foo").display = .ok ⟨some "Foo", some 1, .inl rfl⟩ ∧
      (Outcome.claim ⟨some "Foo", some 1, .inl rfl⟩ 5 (LineIndex.ofList [saying " Foo"])).1 =
        ⟨5, "Foo (1)", " Foo (1)", false⟩ := by
  refine ⟨by decide, rfl, ?_, ?_⟩
  · rfl
  · decide

end Diagnostic

end ExpectedDiagnostics
