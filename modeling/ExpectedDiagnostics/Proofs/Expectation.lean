import ExpectedDiagnostics.Expectation
import ExpectedDiagnostics.Proofs.Text.Printed
import ExpectedDiagnostics.Proofs.Text.Tidy
import Mathlib.Data.Bool.AllAny

/-!
# Reading expectations

The code of an annotation is a number in parentheses at its end, with blanks behind it, and there is
at most one way to cut it off. What is in front of it is tidied, and this changes nothing at the end
of a message, so no message that is read ends in a code. An expectation that is written is therefore
read back, unless its message, having no code behind it, is taken apart for ending in one.

Main results:

* `splitCode?_eq_some_iff` — which code is cut off a text.
* `parse_eq_ok_iff` — which expectation is read from a text.
* `parse_toString` — what is written is read back, except for a message that ends in a code.
-/

namespace ExpectedDiagnostics.Expectation

/-! ## Codes -/

/-- A number that is written as a code: digits, and one of them at least. -/
structure IsCode (digits : List Char) : Prop where
  nonempty : digits ≠ []
  digits : ∀ d ∈ digits, isCodeDigit d = true

/-- A text ends in a number in parentheses. -/
def EndsInCode (cs : List Char) : Prop :=
  ∃ before digits, IsCode digits ∧ cs = before ++ '(' :: (digits ++ [')'])

theorem isCodeDigit_eq (c : Char) : isCodeDigit c = c.isDigit := by
  unfold isCodeDigit Char.isDigit
  simp only [Char.le_def, ge_iff_le]

theorem isCode_toDigits (n : Nat) : IsCode (Nat.toDigits 10 n) where
  nonempty := Nat.toDigits_ne_nil
  digits d hd := by
    rw [isCodeDigit_eq]
    exact isDigit_of_mem_toDigits hd

/-- A code is neither a blank nor a parenthesis. -/
theorem of_isCodeDigit {d : Char} (hd : isCodeDigit d = true) :
    Text.isBlank d = false ∧ d ≠ '(' ∧ d ≠ ')' := by
  rw [isCodeDigit_eq, Char.isDigit_iff_toNat] at hd
  have hzero : '0'.toNat = 0x30 := rfl
  have hnine : '9'.toNat = 0x39 := rfl
  refine ⟨?_, ?_, ?_⟩
  · unfold Text.isBlank
    simp only [Bool.or_eq_false_iff, Bool.and_eq_false_iff, decide_eq_false_iff_not,
      beq_eq_false_iff_ne]
    omega
  · rintro rfl
    exact absurd hd (by decide)
  · rintro rfl
    exact absurd hd (by decide)

/-- A written code has no blanks. -/
theorem IsCode.not_blank {digits : List Char} (h : IsCode digits) :
    ∀ c ∈ '(' :: (digits ++ [')']), Text.isBlank c = false := by
  intro c hc
  simp only [List.mem_cons, List.mem_append, List.not_mem_nil, or_false] at hc
  rcases hc with rfl | hc | rfl
  · decide
  · exact (of_isCodeDigit (h.digits c hc)).1
  · decide

/-- **The code that is cut off a text** is a number in parentheses with nothing but blanks behind
it. -/
theorem splitCode?_eq_some_iff {cs before : List Char} {n : Nat} :
    splitCode? cs = some (before, n) ↔ ∃ digits blanks, IsCode digits ∧ Text.AllBlank blanks ∧
      cs = before ++ '(' :: (digits ++ ')' :: blanks) ∧ n = Text.number digits := by
  constructor
  · intro h
    obtain ⟨blanks, hcut, hblanks, -⟩ := Text.exists_stripRight cs
    unfold splitCode? at h
    split at h
    · rename_i reversed hreversed
      have hstripped : Text.stripRight cs = reversed.reverse ++ [')'] := by
        rw [← List.reverse_reverse (Text.stripRight cs), hreversed, List.reverse_cons]
      split at h
      · exact nomatch h
      · rename_i behind hdigits hnone
        obtain ⟨rfl, rfl⟩ := Prod.mk.inj (Option.some.inj h)
        -- read backwards, the digits come first
        have hreverse : reversed = reversed.takeWhile isCodeDigit ++ '(' :: behind := by
          rw [← hdigits, List.takeWhile_append_dropWhile]
        refine ⟨(reversed.takeWhile isCodeDigit).reverse, blanks, ⟨?_, ?_⟩, hblanks, ?_, rfl⟩
        · rw [Ne, List.reverse_eq_nil_iff]
          exact hnone
        · intro d hd
          exact List.mem_takeWhile_imp (List.mem_reverse.mp hd)
        · calc cs = reversed.reverse ++ ')' :: blanks := by
                rw [hcut, hstripped, List.append_assoc, List.singleton_append]
            _ = (reversed.takeWhile isCodeDigit ++ '(' :: behind).reverse ++ ')' :: blanks := by
                rw [← hreverse]
            _ = _ := by simp
      · exact nomatch h
    · exact nomatch h
  · rintro ⟨digits, blanks, hcode, hblanks, rfl, rfl⟩
    have hstripped : Text.stripRight (before ++ '(' :: (digits ++ ')' :: blanks)) =
        before ++ '(' :: (digits ++ [')']) := by
      have hcut : before ++ '(' :: (digits ++ ')' :: blanks) =
          (before ++ '(' :: (digits ++ [')'])) ++ blanks := by
        simp
      rw [hcut]
      refine Text.stripRight_append hblanks fun c hc => ?_
      have hends : before ++ '(' :: (digits ++ [')']) = (before ++ '(' :: digits) ++ [')'] := by
        simp
      rw [hends, List.getLast?_concat] at hc
      rw [← Option.some.inj hc]
      decide
    have hreverse : (before ++ '(' :: (digits ++ [')'])).reverse =
        ')' :: (digits.reverse ++ '(' :: before.reverse) := by
      simp
    have hall : ∀ d ∈ digits.reverse, isCodeDigit d = true := fun d hd =>
      hcode.digits d (List.mem_reverse.mp hd)
    -- the parenthesis that opens is where the digits end, since it is none of them
    have hopen : ∀ c ∈ ('(' :: before.reverse).head?, isCodeDigit c = false := by
      intro c hc
      rw [← Option.some.inj hc]
      decide
    have hne : digits.reverse ≠ [] := by
      rw [Ne, List.reverse_eq_nil_iff]
      exact hcode.nonempty
    obtain ⟨htake, hdrop⟩ := Text.takeWhile_append_stop hall hopen
    unfold splitCode?
    simp only [hstripped, hreverse, htake, hdrop]
    rw [List.reverse_reverse, List.reverse_reverse]

/-- A text that does not end with a blank has a code exactly if it ends in one. -/
theorem splitCode?_eq_none_iff {cs : List Char} (h : Text.IsStripped cs) :
    splitCode? cs = none ↔ ¬ EndsInCode cs := by
  rw [Option.eq_none_iff_forall_ne_some]
  constructor
  · rintro hnone ⟨before, digits, hcode, rfl⟩
    exact hnone (before, Text.number digits)
      (splitCode?_eq_some_iff.mpr ⟨digits, [], hcode, Text.allBlank_nil, rfl, rfl⟩)
  · rintro hends ⟨before, n⟩ hsome
    obtain ⟨digits, blanks, hcode, hblanks, rfl, -⟩ := splitCode?_eq_some_iff.mp hsome
    refine hends ⟨before, digits, hcode, ?_⟩
    -- the last character is the parenthesis, since it would be a blank otherwise
    rcases List.eq_nil_or_concat blanks with rfl | ⟨front, last, rfl⟩
    · rfl
    · have hcut : before ++ '(' :: (digits ++ ')' :: front.concat last) =
          (before ++ '(' :: (digits ++ ')' :: front)) ++ [last] := by
        simp
      have hlast : Text.isBlank last = false := by
        refine h.back last ?_
        rw [hcut, List.getLast?_concat]
        rfl
      have hblank : Text.isBlank last = true := hblanks last (by simp)
      exact absurd hblank (Bool.eq_false_iff.mp hlast)

/-! ## Messages -/

theorem messageOf_eq_some_iff {cs : List Char} {m : String} :
    messageOf cs = some m ↔ m ≠ "" ∧ m.toList = Text.tidy cs := by
  unfold messageOf
  split
  · rename_i hnil
    refine iff_of_false nofun ?_
    rintro ⟨hne, hm⟩
    rw [hnil, String.toList_eq_nil_iff] at hm
    exact hne hm
  · rename_i hne
    rw [Option.some.injEq]
    constructor
    · rintro rfl
      refine ⟨?_, String.toList_ofList⟩
      rw [Ne, ← String.toList_eq_nil_iff, String.toList_ofList]
      exact fun hnil => hne hnil
    · rintro ⟨-, hm⟩
      rw [← hm, String.ofList_toList]

theorem messageOf_eq_none_iff {cs : List Char} : messageOf cs = none ↔ Text.AllBlank cs := by
  rw [← Text.tidy_eq_nil_iff]
  unfold messageOf
  split
  · rename_i hnil
    exact iff_of_true rfl hnil
  · rename_i hne
    exact iff_of_false nofun hne

theorem messageOf_append_blanks {cs back : List Char} (hback : Text.AllBlank back) :
    messageOf (cs ++ back) = messageOf cs := by
  unfold messageOf
  rw [Text.tidy_append_blanks hback]

/-- A message that is not blank and tidy is read as it is. -/
theorem messageOf_toList {m : String} (hne : m ≠ "") (htidy : Text.IsTidy m.toList) :
    messageOf m.toList = some m :=
  messageOf_eq_some_iff.mpr ⟨hne, htidy.tidy_eq.symm⟩

/-! ## What is read -/

/-- An expectation with a message that is tidy, if it has one, and a code that is not negative, if
it has one. -/
structure IsNormal (e : Expectation) : Prop where
  message : ∀ m, e.message = some m → m ≠ "" ∧ Text.IsTidy m.toList
  code : ∀ n, e.code = some n → 0 ≤ n

/-- An expectation that has a code, or a message that does not end in one. -/
def IsUnambiguous (e : Expectation) : Prop :=
  e.code.isSome = true ∨ ∀ m, e.message = some m → ¬ EndsInCode m.toList

theorem parse_of_code {text : String} {before : List Char} {n : Nat}
    (h : splitCode? text.toList = some (before, n)) :
    parse text = .ok ⟨messageOf before, some n, .inr rfl⟩ := by
  unfold parse
  rw [h]

theorem exists_parse_of_code {text : String} {before : List Char} {n : Nat}
    (h : splitCode? text.toList = some (before, n)) :
    ∃ e, parse text = .ok e ∧ e.message = messageOf before ∧ e.code = some (n : Int) :=
  ⟨_, parse_of_code h, rfl, rfl⟩

theorem parse_of_message {text m : String} (h : splitCode? text.toList = none)
    (hm : messageOf text.toList = some m) : parse text = .ok ⟨some m, none, .inl rfl⟩ := by
  unfold parse
  rw [h]
  dsimp only
  rw [hm]

/-- An expectation is read from a text with a code, or from one that is not blank. -/
theorem cases_of_parse {text : String} {e : Expectation} (h : parse text = .ok e) :
    (∃ before n, splitCode? text.toList = some (before, n) ∧ e.message = messageOf before ∧
        e.code = some (n : Int)) ∨
      ∃ m, splitCode? text.toList = none ∧ messageOf text.toList = some m ∧ e.message = some m ∧
        e.code = none := by
  unfold parse at h
  split at h
  · rename_i before n hsplit
    obtain rfl := Except.ok.inj h
    exact .inl ⟨before, n, hsplit, rfl, rfl⟩
  · rename_i hsplit
    split at h
    · rename_i m hm
      obtain rfl := Except.ok.inj h
      exact .inr ⟨m, hsplit, hm, rfl, rfl⟩
    · exact nomatch h

theorem isNormal_of_parse {text : String} {e : Expectation} (h : parse text = .ok e) :
    e.IsNormal := by
  have htidy : ∀ {cs : List Char} {m : String}, messageOf cs = some m →
      m ≠ "" ∧ Text.IsTidy m.toList := by
    intro cs m hm
    obtain ⟨hne, hcs⟩ := messageOf_eq_some_iff.mp hm
    rw [hcs]
    exact ⟨hne, Text.isTidy_tidy cs⟩
  rcases cases_of_parse h with ⟨before, n, -, hmessage, hcode⟩ | ⟨m, -, hm, hmessage, hcode⟩
  · constructor
    · intro m hm
      exact htidy (hmessage.symm.trans hm)
    · intro k hk
      rw [← Option.some.inj (hcode.symm.trans hk)]
      exact Int.natCast_nonneg n
  · constructor
    · intro k hk
      rw [← Option.some.inj (hmessage.symm.trans hk)]
      exact htidy hm
    · intro k hk
      exact nomatch hcode.symm.trans hk

/-- No message that is read without a code ends in one: it would have been cut off, whatever blanks
there were. -/
theorem isUnambiguous_of_parse {text : String} {e : Expectation} (h : parse text = .ok e) :
    e.IsUnambiguous := by
  rcases cases_of_parse h with ⟨before, n, -, -, hcode⟩ | ⟨m, hnone, hm, hmessage, -⟩
  · left
    rw [hcode]
    rfl
  · right
    rintro k hk ⟨before, digits, hcode, hends⟩
    obtain rfl := Option.some.inj (hmessage.symm.trans hk)
    rw [(messageOf_eq_some_iff.mp hm).2] at hends
    -- a code has no blanks, so tidying has not made it: it was in the text
    obtain ⟨front, blanks, hcut, hblanks⟩ :=
      Text.exists_append_of_tidy hends hcode.not_blank
    have hsome : splitCode? text.toList = some (front, Text.number digits) := by
      refine splitCode?_eq_some_iff.mpr ⟨digits, blanks, hcode, hblanks, ?_, rfl⟩
      rw [hcut]
      simp
    exact nomatch hnone.symm.trans hsome

/-! ## What is written -/

/-- A code as it is written, with its parentheses. -/
def codeText (n : Nat) : List Char :=
  '(' :: (Nat.toDigits 10 n ++ [')'])

theorem splitCode?_codeText (before : List Char) (n : Nat) :
    splitCode? (before ++ codeText n) = some (before, n) :=
  splitCode?_eq_some_iff.mpr ⟨Nat.toDigits 10 n, [], isCode_toDigits n, Text.allBlank_nil, rfl,
    (Text.number_toDigits n).symm⟩

theorem toList_parenthesized (n : Nat) : (s!"({(n : Int)})").toList = codeText n := by
  have hopen : (ToString.toString "(").toList = ['('] := rfl
  have hclose : (ToString.toString ")").toList = [')'] := rfl
  rw [String.toList_append, String.toList_append, toList_toString_natCast, hopen, hclose]
  rfl

theorem toList_toString_of_message {e : Expectation} {m : String} (hm : e.message = some m)
    (hn : e.code = none) : e.toString.toList = m.toList := by
  unfold toString
  rw [hm, hn]
  rfl

theorem toList_toString_of_code {e : Expectation} {n : Nat} (hm : e.message = none)
    (hn : e.code = some (n : Int)) : e.toString.toList = codeText n := by
  unfold toString
  rw [hm, hn]
  exact toList_parenthesized n

theorem toList_toString_of_both {e : Expectation} {m : String} {n : Nat} (hm : e.message = some m)
    (hn : e.code = some (n : Int)) : e.toString.toList = (m.toList ++ [' ']) ++ codeText n := by
  unfold toString
  rw [hm, hn, ← toList_parenthesized n]
  simp only [Option.toList_some, List.map_cons, List.map_nil, List.singleton_append,
    String.intercalate_cons_cons, String.intercalate_singleton, String.toList_append]
  rfl

/-! ## Reading what is written -/

/-- An expectation with a code is read back: the code is cut off again, and the space in front of it
with the blanks of the message. -/
theorem parse_toString_of_code {e : Expectation} (h : e.IsNormal) {k : Int}
    (hk : e.code = some k) : parse e.toString = .ok e := by
  obtain ⟨n, rfl⟩ := Int.eq_ofNat_of_zero_le (h.code k hk)
  obtain ⟨message, code, hpart⟩ := e
  obtain rfl : code = some (n : Int) := hk
  cases message with
  | none =>
    have hsplit : splitCode? (toString ⟨none, some (n : Int), hpart⟩).toList = some ([], n) := by
      rw [toList_toString_of_code rfl rfl]
      exact splitCode?_codeText [] n
    exact parse_of_code hsplit
  | some m =>
    obtain ⟨hne, htidy⟩ := h.message m rfl
    have hsplit : splitCode? (toString ⟨some m, some (n : Int), hpart⟩).toList =
        some (m.toList ++ [' '], n) := by
      rw [toList_toString_of_both rfl rfl]
      exact splitCode?_codeText _ n
    have hmessage : messageOf (m.toList ++ [' ']) = some m := by
      rw [messageOf_append_blanks Text.allBlank_singleton]
      exact messageOf_toList hne htidy
    rw [parse_of_code hsplit]
    simp only [hmessage]

/-- A message without a code is read back exactly if nothing is cut off it. -/
theorem parse_toString_of_message {e : Expectation} (h : e.IsNormal) {m : String}
    (hm : e.message = some m) (hn : e.code = none) :
    parse e.toString = .ok e ↔ ¬ EndsInCode m.toList := by
  obtain ⟨hne, htidy⟩ := h.message m hm
  rw [← splitCode?_eq_none_iff htidy.toIsStripped, ← toList_toString_of_message hm hn]
  constructor
  · intro hread
    rcases cases_of_parse hread with ⟨before, n, -, -, hcode⟩ | ⟨k, hnone, -, -, -⟩
    · exact nomatch hn.symm.trans hcode
    · exact hnone
  · intro hnone
    have hmessage : messageOf e.toString.toList = some m := by
      rw [toList_toString_of_message hm hn]
      exact messageOf_toList hne htidy
    obtain ⟨message, code, hpart⟩ := e
    obtain rfl : message = some m := hm
    obtain rfl : code = none := hn
    exact parse_of_message hnone hmessage

theorem parse_toString_iff {e : Expectation} (h : e.IsNormal) :
    parse e.toString = .ok e ↔ e.IsUnambiguous := by
  cases hcode : e.code with
  | some k =>
    refine iff_of_true (parse_toString_of_code h hcode) (.inl ?_)
    rw [hcode]
    rfl
  | none =>
    -- an expectation without a code says a message
    obtain ⟨m, hm⟩ : ∃ m, e.message = some m := by
      have hpart := e.says_something
      rw [hcode] at hpart
      exact Option.isSome_iff_exists.mp (hpart.resolve_right Bool.false_ne_true)
    rw [parse_toString_of_message h hm hcode]
    unfold IsUnambiguous
    rw [hcode]
    constructor
    · intro hends
      right
      intro k hk
      rwa [← Option.some.inj (hm.symm.trans hk)]
    · rintro (hsome | hends)
      · exact absurd hsome Bool.false_ne_true
      · exact hends m hm

/-- **Expectations are read back.** A tidy expectation is read back from its text exactly if it has
a code or its message does not end in one, and whatever is read from a text is such an expectation,
so that reading it back gives it again. -/
theorem parse_toString :
    (∀ e : Expectation, e.IsNormal → (parse e.toString = .ok e ↔ e.IsUnambiguous)) ∧
      ∀ text e, parse text = .ok e →
        e.IsNormal ∧ e.IsUnambiguous ∧ parse e.toString = .ok e := by
  refine ⟨fun e h => parse_toString_iff h, ?_⟩
  intro text e h
  have hnormal : e.IsNormal := isNormal_of_parse h
  have hunambiguous : e.IsUnambiguous := isUnambiguous_of_parse h
  exact ⟨hnormal, hunambiguous, (parse_toString_iff hnormal).mpr hunambiguous⟩

/-- An expectation with a message that ends in a code. -/
def coded (code : Option Int) : Expectation :=
  ⟨some "Foo (12)", code, .inl rfl⟩

theorem isNormal_coded {code : Option Int} (h : ∀ n, code = some n → 0 ≤ n) :
    (coded code).IsNormal where
  message m hm := by
    obtain rfl : "Foo (12)" = m := Option.some.inj hm
    decide
  code := h

/-- A message that ends in a code is read back with a code behind it, however the blanks were, and
not without one. -/
theorem parse_toString_coded :
    ((coded none).IsNormal ∧ parse (coded none).toString ≠ .ok (coded none)) ∧
      ((coded (some 7)).IsNormal ∧ parse (coded (some 7)).toString = .ok (coded (some 7))) ∧
      parse " Foo\t (12)  (007)\n" = .ok (coded (some 7)) ∧ (coded (some 7)).IsUnambiguous := by
  have hnone : (coded none).IsNormal := isNormal_coded nofun
  have hseven : (coded (some 7)).IsNormal := by
    refine isNormal_coded fun n hn => ?_
    rw [← Option.some.inj hn]
    decide
  have hdigits : ∀ d ∈ "12".toList, isCodeDigit d = true :=
    List.all_iff_forall_prop.mp (by decide)
  have hends : EndsInCode "Foo (12)".toList :=
    ⟨"Foo ".toList, "12".toList, ⟨by decide, hdigits⟩, by decide⟩
  have hread : parse " Foo\t (12)  (007)\n" = .ok (coded (some 7)) := rfl
  obtain ⟨-, hunambiguous, hback⟩ := parse_toString.2 _ _ hread
  refine ⟨⟨hnone, ?_⟩, ⟨hseven, hback⟩, hread, hunambiguous⟩
  intro hsame
  rcases (parse_toString.1 (coded none) hnone).mp hsame with hcode | hmessage
  · exact absurd hcode Bool.false_ne_true
  · exact hmessage _ rfl hends

end ExpectedDiagnostics.Expectation
