import ExpectedDiagnostics.Proofs.Expectation
import ExpectedDiagnostics.Proofs.Text.Joined

/-!
# Weaker expectations

An expectation wants the code it has, and of the message that it is its own, or that it begins with
what stands in front of the ellipsis. So an expectation that is left with one of its parts, or that
asks for no more than a beginning of what it wanted, accepts whatever was accepted before.

Main results:

* `messageFits_iff_eq`, `messageFits_append_iff` — which messages fit a text, without an ellipsis at
  its end and with one.
* `accepts_iff` — what is accepted, by code and message.
* `exists_parse_beginning` — what is read of any text with an ellipsis and a code behind it.
* `accepts_weaker` — whatever is accepted is accepted by every weaker expectation.
-/

namespace ExpectedDiagnostics.Expectation

/-! ## Messages with an ellipsis -/

/-- A text that ends in an ellipsis says how a message begins. -/
theorem beginning?_append {m : String} {front : List Char} (h : m.toList = front ++ ellipsis) :
    beginning? m = some (.ofList (Text.stripRight front)) := by
  have hsuffix : ellipsis.isSuffixOf m.toList = true := by
    rw [List.isSuffixOf_iff_suffix, h]
    exact List.suffix_append front ellipsis
  unfold beginning?
  rw [if_pos hsuffix, h, List.length_append, Nat.add_sub_cancel, List.take_left]

theorem beginning?_eq_none {m : String} (h : ¬ ellipsis <:+ m.toList) : beginning? m = none := by
  unfold beginning?
  rw [if_neg]
  rwa [List.isSuffixOf_iff_suffix]

theorem messageFits_append_iff {m actual : String} {front : List Char}
    (h : m.toList = front ++ ellipsis) :
    messageFits m actual = true ↔ Text.stripRight front <+: actual.toList := by
  unfold messageFits
  rw [beginning?_append h]
  dsimp only
  rw [List.isPrefixOf_iff_prefix, String.toList_ofList]

theorem messageFits_iff_eq {m actual : String} (h : ¬ ellipsis <:+ m.toList) :
    messageFits m actual = true ↔ m = actual := by
  unfold messageFits
  rw [beginning?_eq_none h]
  exact beq_iff_eq

/-- The front of a text is what its ellipsis stands behind, without the blanks in between. -/
def IsFront (kept : List Char) (m : String) : Prop :=
  ∃ blanks, Text.AllBlank blanks ∧ (∀ c ∈ kept.getLast?, Text.isBlank c = false) ∧
    m.toList = kept ++ blanks ++ ellipsis

theorem exists_isFront {m : String} (h : ellipsis <:+ m.toList) : ∃ kept, IsFront kept m := by
  obtain ⟨front, hfront⟩ := h
  obtain ⟨blanks, hcut, hblanks, hend⟩ := Text.exists_stripRight front
  refine ⟨Text.stripRight front, blanks, hblanks, hend, ?_⟩
  rw [← hcut, hfront]

/-- **A text with an ellipsis** is what the messages that begin with its front fit. -/
theorem IsFront.messageFits_iff {kept : List Char} {m : String} (h : IsFront kept m)
    (message : String) : messageFits m message = true ↔ kept <+: message.toList := by
  obtain ⟨blanks, hblanks, hend, hm⟩ := h
  rw [messageFits_append_iff hm, Text.stripRight_append hblanks hend]

/-! ## What is accepted -/

/-- **What is accepted**: the code, if there is one, and a message that fits, if there is one. -/
theorem accepts_iff {e : Expectation} {message : String} {code : Option Int} :
    e.accepts message code = true ↔
      (e.code = none ∨ e.code = code) ∧ ∀ m, e.message = some m → messageFits m message = true := by
  unfold accepts
  rw [Bool.and_eq_true, Bool.or_eq_true, Option.isNone_iff_eq_none, beq_iff_eq, Option.all_eq_true]

theorem accepts_iff_of_message {e : Expectation} {m message : String} {code : Option Int}
    (hm : e.message = some m) : e.accepts message code = true ↔
      (e.code = none ∨ e.code = code) ∧ messageFits m message = true := by
  rw [accepts_iff, hm]
  simp only [Option.some.injEq, forall_eq']

/-- The text that an accepted message is, or has to begin with. -/
def wanted? (e : Expectation) : Option String :=
  e.opening?.or e.message

/-- Whatever is accepted begins with the text that is wanted. -/
theorem wanted_isPrefix {e : Expectation} {message wanted : String} {code : Option Int}
    (haccepts : e.accepts message code = true) (hwanted : e.wanted? = some wanted) :
    wanted.toList <+: message.toList := by
  unfold wanted? opening? at hwanted
  cases hm : e.message with
  | none =>
    rw [hm] at hwanted
    exact nomatch hwanted
  | some m =>
    have hfits := (accepts_iff.mp haccepts).2 m hm
    unfold messageFits at hfits
    rw [hm, Option.bind_some] at hwanted
    cases hbeginning : beginning? m with
    -- without an ellipsis the message is the text itself
    | none =>
      simp only [hbeginning, Option.none_or, Option.some.injEq, beq_iff_eq] at hfits hwanted
      obtain rfl : wanted = message := hwanted.symm.trans hfits
      exact List.prefix_rfl
    | some opening =>
      simp only [hbeginning, Option.some_or, Option.some.injEq] at hfits hwanted
      rw [← hwanted]
      exact List.isPrefixOf_iff_prefix.mp hfits

/-! ## Asking for a beginning -/

/-- The message that asks for a beginning only. -/
def beginsWith (q : String) : String :=
  q ++ " [...]"

theorem toList_beginsWith (q : String) : (beginsWith q).toList = q.toList ++ [' '] ++ ellipsis := by
  have hend : (" [...]").toList = [' '] ++ ellipsis := rfl
  rw [beginsWith, String.toList_append, hend, List.append_assoc]

/-- The text that is asked for may be shortened. -/
theorem messageFits_beginsWith {q message : String} (h : q.toList <+: message.toList) :
    messageFits (beginsWith q) message = true := by
  obtain ⟨blanks, hcut, hblanks, hend⟩ := Text.exists_stripRight q.toList
  have hfront : IsFront (Text.stripRight q.toList) (beginsWith q) := by
    refine ⟨blanks ++ [' '], ?_, hend, ?_⟩
    · intro c hc
      exact (List.mem_append.mp hc).elim (hblanks c) (Text.allBlank_singleton c)
    · rw [toList_beginsWith, ← List.append_assoc, ← hcut]
  have hshort : Text.stripRight q.toList <+: q.toList := ⟨blanks, hcut.symm⟩
  exact (hfront.messageFits_iff message).mpr (hshort.trans h)

theorem isTidy_ellipsis : Text.IsTidy ellipsis := by decide

/-- The text of an annotation that asks for a beginning and a code. -/
def beginningText (q : String) (n : Int) : String :=
  s!"{q} [...] ({n})"

theorem toList_beginningText (q : String) (n : Nat) :
    (beginningText q n).toList = (q.toList ++ [' '] ++ ellipsis ++ [' ']) ++ codeText n := by
  have hellipsis : (ToString.toString " [...] (").toList = [' '] ++ ellipsis ++ [' ', '('] := rfl
  have hclose : (ToString.toString ")").toList = [')'] := rfl
  have hq : ToString.toString q = q := rfl
  rw [beginningText, String.toList_append, String.toList_append, String.toList_append,
    toList_toString_natCast, hellipsis, hclose, hq]
  simp [codeText]

/-- **What is read of a beginning.** Any text with an ellipsis and a code behind it can be read, and
asks for the code and for messages that begin with the text, tidied. -/
theorem exists_parse_beginning (q : String) (n : Nat) :
    ∃ e, parse (beginningText q n) = .ok e ∧ ∀ message code,
      e.accepts message code = true ↔
        code = some (n : Int) ∧ Text.tidy q.toList <+: message.toList := by
  have hsplit : splitCode? (beginningText q n).toList =
      some (q.toList ++ [' '] ++ ellipsis ++ [' '], n) := by
    rw [toList_beginningText]
    exact splitCode?_codeText _ n
  obtain ⟨e, hparse, hmessage, hcode⟩ := exists_parse_of_code hsplit
  -- the ellipsis has no blanks, so it stays at the end of what is read
  obtain ⟨front, htidy, hfront⟩ :=
    Text.exists_tidy_append (q.toList ++ [' ']) isTidy_ellipsis (List.cons_ne_nil _ _)
  rw [Text.tidy_append_blanks Text.allBlank_singleton] at hfront
  have hread : messageOf (q.toList ++ [' '] ++ ellipsis ++ [' ']) =
      some (.ofList (front ++ ellipsis)) := by
    rw [messageOf_append_blanks Text.allBlank_singleton, messageOf_eq_some_iff, htidy,
      String.toList_ofList, Ne, ← String.toList_eq_nil_iff, String.toList_ofList]
    exact ⟨List.append_ne_nil_of_right_ne_nil _ (List.cons_ne_nil _ _), rfl⟩
  rw [hread] at hmessage
  refine ⟨e, hparse, fun message code => ?_⟩
  have hfits : messageFits (.ofList (front ++ ellipsis)) message = true ↔
      Text.tidy q.toList <+: message.toList := by
    rw [messageFits_append_iff String.toList_ofList, hfront]
  rw [accepts_iff_of_message hmessage, hcode, or_iff_right (Option.some_ne_none _), hfits, eq_comm]

/-- Tidying the beginning of a message on one line drops no more than a blank at its end. -/
theorem tidy_isPrefix {q r : List Char} (hstart : Text.startsBlank (q ++ r) = false)
    (hcollapse : Text.collapse (q ++ r) = q ++ r) : Text.tidy q <+: q := by
  have hpiece : q <:+: Text.collapse (q ++ r) := by
    rw [hcollapse]
    exact (List.prefix_append q r).isInfix
  have hq : Text.startsBlank q = false := by
    cases q with
    | nil => rfl
    | cons c q => exact hstart
  rw [← Text.collapse_of_isInfix hpiece, Text.tidy_collapse, Text.collapse_of_isInfix hpiece]
  exact Text.strip_isPrefix hq

/-- **Weaker expectations accept more.** What is accepted is accepted by the code alone and by the
message alone, and by the code with any beginning of the wanted text, whatever the blanks at its
end. A message with an ellipsis asks for the code, if there is one, and for its front. So a message
on one line that does not begin with a blank may be cut anywhere: what is in front of the cut, with
an ellipsis and a code behind it, is read as an expectation that accepts the message with the
code. -/
theorem accepts_weaker :
    (∀ (e : Expectation) (message : String) (code : Option Int), e.accepts message code = true →
      (∀ n, e.code = some n →
        accepts ⟨none, some n, .inr rfl⟩ message code = true) ∧
      (∀ m, e.message = some m →
        accepts ⟨some m, none, .inl rfl⟩ message code = true) ∧
      ∀ wanted q : String, e.wanted? = some wanted → q.toList <+: wanted.toList →
        accepts ⟨some (beginsWith q), e.code, .inl rfl⟩ message code = true) ∧
      (∀ (e : Expectation) (m : String), e.message = some m → ellipsis <:+ m.toList →
        ∃ kept, IsFront kept m ∧ ∀ (message : String) (code : Option Int),
          e.accepts message code = true ↔
            (e.code = none ∨ e.code = code) ∧ kept <+: message.toList) ∧
      ∀ (message q r : String) (n : Int), message = q ++ r →
        Text.startsBlank message.toList = false →
        Text.collapse message.toList = message.toList → 0 ≤ n →
          ∃ e, parse (beginningText q n) = .ok e ∧ e.accepts message (some n) = true := by
  refine ⟨fun e message code haccepts => ?_, ?_, ?_⟩
  · obtain ⟨hcode, hmessage⟩ := accepts_iff.mp haccepts
    refine ⟨?_, ?_, ?_⟩
    · intro n hn
      rw [hn] at hcode
      exact accepts_iff.mpr ⟨hcode, nofun⟩
    · intro m hm
      rw [hm] at hmessage
      exact accepts_iff.mpr ⟨.inl rfl, hmessage⟩
    · intro wanted q hwanted hq
      have hfits := messageFits_beginsWith (hq.trans (wanted_isPrefix haccepts hwanted))
      exact (accepts_iff_of_message rfl).mpr ⟨hcode, hfits⟩
  · intro e m hm hends
    obtain ⟨kept, hfront⟩ := exists_isFront hends
    refine ⟨kept, hfront, fun message code => ?_⟩
    rw [accepts_iff_of_message hm, hfront.messageFits_iff message]
  -- what is read asks for the tidied cut, and the message begins with it
  · rintro message q r n rfl hstart hcollapse hn
    obtain ⟨k, rfl⟩ := Int.eq_ofNat_of_zero_le hn
    obtain ⟨e, hparse, haccepts⟩ := exists_parse_beginning q k
    rw [String.toList_append] at hstart hcollapse
    refine ⟨e, hparse, (haccepts _ _).mpr ⟨rfl, ?_⟩⟩
    rw [String.toList_append]
    exact (tidy_isPrefix hstart hcollapse).trans (List.prefix_append _ _)

/-- A message of the compiler. -/
def unassignable : String :=
  "Type 'A' is not assignable."

/-- What an annotation may ask of it. -/
def wantsUnassignable : Expectation :=
  ⟨some "Type 'A' is \u3000[...]", some 2322, .inl rfl⟩

/-- The code alone, the beginning alone and a shorter beginning are enough. The message may be cut
behind a blank, which is dropped. -/
theorem accepts_weaker_unassignable :
    wantsUnassignable.accepts unassignable (some 2322) = true ∧
      accepts ⟨none, some 2322, .inr rfl⟩ unassignable (some 2322) = true ∧
      accepts ⟨some "Type 'A' is \u3000[...]", none, .inl rfl⟩ unassignable (some 2322) = true ∧
      accepts ⟨some (beginsWith "Type '"), some 2322, .inl rfl⟩ unassignable (some 2322) = true ∧
      (∃ kept, IsFront kept "Type 'A' is \u3000[...]" ∧ kept <+: unassignable.toList) ∧
      beginningText "Type 'A' " 2322 = "Type 'A'  [...] (2322)" ∧
      ∃ e, parse (beginningText "Type 'A' " 2322) = .ok e ∧
        e.accepts unassignable (some 2322) = true := by
  have haccepts : wantsUnassignable.accepts unassignable (some 2322) = true := by decide
  obtain ⟨hweaker, hfront, hcut⟩ := accepts_weaker
  obtain ⟨hcode, hmessage, hshorter⟩ := hweaker _ _ _ haccepts
  have hends : ellipsis <:+ "Type 'A' is \u3000[...]".toList := by decide
  obtain ⟨kept, hkept, hiff⟩ := hfront wantsUnassignable _ rfl hends
  have hstart : Text.startsBlank unassignable.toList = false := by decide
  have hcollapse : Text.collapse unassignable.toList = unassignable.toList := by decide
  have hread := hcut unassignable "Type 'A' " "is not assignable." 2322 (by decide) hstart
    hcollapse (by decide)
  exact ⟨haccepts, hcode 2322 rfl, hmessage _ rfl,
    hshorter "Type 'A' is" "Type '" (by decide) (by decide),
    ⟨kept, hkept, ((hiff _ _).mp haccepts).2⟩, by decide, hread⟩

end ExpectedDiagnostics.Expectation
