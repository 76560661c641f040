import ExpectedDiagnostics.Proofs.Text.Printed
import ExpectedDiagnostics.Text.Lines

/-!
# Lines of a text

How a text is put together from its lines. A text without a character that ends a line is one line
of what it is put into. With a line feed between two texts come the lines of the one and those of
the other.

Main results:

* `splitLines_intercalate` — the lines that are joined are the lines that are read.
* `exists_splitLines_append` — the lines of two texts.
-/

namespace ExpectedDiagnostics.Text

/-- A text without a character that ends a line. -/
def OneLine (cs : List Char) : Prop :=
  ∀ c ∈ cs, isLineEnd c = false

instance (cs : List Char) : Decidable (OneLine cs) :=
  List.decidableBAll (fun c => isLineEnd c = false) cs

theorem OneLine.append {cs ds : List Char} (hcs : OneLine cs) (hds : OneLine ds) :
    OneLine (cs ++ ds) :=
  List.forall_mem_append.mpr ⟨hcs, hds⟩

theorem OneLine.cons {c : Char} {cs : List Char} (hc : isLineEnd c = false) (hcs : OneLine cs) :
    OneLine (c :: cs) :=
  List.forall_mem_cons.mpr ⟨hc, hcs⟩

theorem oneLine_toDigits (n : Nat) : OneLine (Nat.toDigits 10 n) := by
  intro c hc
  have hrange := Char.isDigit_iff_toNat.mp (isDigit_of_mem_toDigits hc)
  have hzero : '0'.toNat = 0x30 := rfl
  have hnine : '9'.toNat = 0x39 := rfl
  unfold isLineEnd
  simp only [Bool.or_eq_false_iff, Bool.and_eq_false_iff, decide_eq_false_iff_not,
    beq_eq_false_iff_ne]
  omega

theorem ne_return {c : Char} (hc : isLineEnd c = false) : c ≠ '\r' := by
  rintro rfl
  exact absurd hc (by decide)

theorem splitLines_cons {c : Char} (hc : isLineEnd c = false) {cs line : List Char}
    {lines : List (List Char)} (h : splitLines cs = line :: lines) :
    splitLines (c :: cs) = (c :: line) :: lines := by
  rw [splitLines, if_neg (by rw [hc]; exact Bool.false_ne_true), h]
  intro rest hreturn _
  exact ne_return hc hreturn

theorem splitLines_singleton {c : Char} (hc : isLineEnd c = false) : splitLines [c] = [[c]] := by
  rw [splitLines, if_neg (by rw [hc]; exact Bool.false_ne_true), splitLines]
  intro rest hreturn _
  exact ne_return hc hreturn

theorem splitLines_line {cs : List Char} (h : OneLine cs) (rest : List Char) :
    splitLines (cs ++ '\n' :: rest) = cs :: splitLines rest := by
  induction cs with
  | nil =>
    rw [List.nil_append, splitLines, if_pos (by decide)]
    intro _ hreturn _
    exact absurd hreturn (by decide)
  | cons c cs ih =>
    have hcs := ih fun d hd => h d (List.mem_cons_of_mem _ hd)
    exact splitLines_cons (h c List.mem_cons_self) hcs

theorem splitLines_last {cs : List Char} (h : OneLine cs) (hne : cs ≠ []) :
    splitLines cs = [cs] := by
  induction cs with
  | nil => exact absurd rfl hne
  | cons c cs ih =>
    have hc := h c List.mem_cons_self
    cases cs with
    | nil => exact splitLines_singleton hc
    | cons d cs =>
      have hcs := ih (fun e he => h e (List.mem_cons_of_mem _ he)) (List.cons_ne_nil _ _)
      exact splitLines_cons hc hcs

/-- Lines that are joined are read one by one. The last one must not be empty, because an end after
the last line adds no line. -/
theorem splitLines_intercalate {lines : List String} (h : ∀ l ∈ lines, OneLine l.toList)
    (hne : ∀ l ∈ lines, l ≠ "") :
    splitLines (String.intercalate "\n" lines).toList = lines.map (·.toList) := by
  induction lines with
  | nil => rfl
  | cons line lines ih =>
    have hline := h line List.mem_cons_self
    cases lines with
    | nil =>
      rw [String.intercalate_singleton, splitLines_last hline]
      · rfl
      · rw [Ne, String.toList_eq_nil_iff]
        exact hne line List.mem_cons_self
    | cons next lines =>
      have htail := ih (fun l hl => h l (List.mem_cons_of_mem _ hl))
        fun l hl => hne l (List.mem_cons_of_mem _ hl)
      rw [String.intercalate_cons_cons, String.toList_append, String.toList_append,
        List.append_assoc, show "\n".toList = ['\n'] from rfl, List.singleton_append,
        splitLines_line hline, htail]
      rfl

/-! ## Two texts -/

theorem splitLines_end {c : Char} (hc : isLineEnd c = true) {cs : List Char}
    (hreturn : ∀ rest, c = '\r' → cs = '\n' :: rest → False) :
    splitLines (c :: cs) = [] :: splitLines cs := by
  rw [splitLines, if_pos hc]
  exact hreturn

/-- Every text that is not empty has a line. -/
theorem splitLines_eq_nil_iff {cs : List Char} : splitLines cs = [] ↔ cs = [] := by
  constructor
  · intro h
    induction cs using splitLines.induct with
    | case1 => rfl
    | case2 cs ih => exact nomatch h
    | case3 c cs hreturn hend ih => exact nomatch (splitLines_end hend hreturn).symm.trans h
    | case4 c cs hreturn hend hcs ih =>
      rw [ih hcs, splitLines_singleton (Bool.eq_false_iff.mpr hend)] at h
      exact nomatch h
    | case5 c cs hreturn hend line lines hcs ih =>
      exact nomatch (splitLines_cons (Bool.eq_false_iff.mpr hend) hcs).symm.trans h
  · rintro rfl
    rfl

/-- With a line feed between two texts come the lines of the one and those of the other; there may
be an empty line in between. -/
theorem exists_splitLines_append (front back : List Char) :
    ∃ gap, (gap = [] ∨ gap = [[]]) ∧
      splitLines (front ++ '\n' :: back) = splitLines front ++ (gap ++ splitLines back) := by
  have hfeed : splitLines ('\n' :: back) = [] :: splitLines back :=
    splitLines_end (by decide) fun _ hc _ => absurd hc (by decide)
  induction front using splitLines.induct with
  | case1 => exact ⟨[[]], .inr rfl, hfeed⟩
  | case2 cs ih =>
    obtain ⟨gap, hgap, hsplit⟩ := ih
    exact ⟨gap, hgap, congrArg ([] :: ·) hsplit⟩
  | case3 c cs hreturn hend ih =>
    by_cases hlast : c = '\r' ∧ cs = []
    -- the line feed belongs to the carriage return in front of it
    · obtain ⟨rfl, rfl⟩ := hlast
      exact ⟨[], .inl rfl, rfl⟩
    · obtain ⟨gap, hgap, hsplit⟩ := ih
      refine ⟨gap, hgap, ?_⟩
      rw [List.cons_append, splitLines_end hend, hsplit, splitLines_end hend hreturn,
        List.cons_append]
      intro rest hc hcs
      cases cs with
      | nil => exact hlast ⟨hc, rfl⟩
      | cons d cs => exact hreturn cs hc (congrArg (· :: cs) (List.cons.inj hcs).1)
  | case4 c cs hreturn hend hcs ih =>
    have hc := Bool.eq_false_iff.mpr hend
    obtain rfl := splitLines_eq_nil_iff.mp hcs
    refine ⟨[], .inl rfl, ?_⟩
    rw [splitLines_singleton hc]
    exact splitLines_cons hc hfeed
  | case5 c cs hreturn hend line lines hcs ih =>
    have hc := Bool.eq_false_iff.mpr hend
    obtain ⟨gap, hgap, hsplit⟩ := ih
    refine ⟨gap, hgap, ?_⟩
    rw [hcs] at hsplit
    rw [splitLines_cons hc hcs]
    exact splitLines_cons hc hsplit

end ExpectedDiagnostics.Text
