import ExpectedDiagnostics.Proofs.Text.Printed
import ExpectedDiagnostics.Text.Numeral
import Mathlib.Data.List.TakeWhile

/-!
# Printed integers

An integer is printed as a numeral without blanks or underscores, with a minus sign in front if it
is negative. So it is read as it was printed, and no other character comes up in it.

Main results:

* `eq_minus_or_isDigit` — the characters of a printed integer.
* `integer?_toString` — a printed integer is read back.
-/

namespace ExpectedDiagnostics.Text

/-- A printed integer has digits and a minus sign only. -/
theorem eq_minus_or_isDigit {n : Int} {c : Char} (hc : c ∈ (toString n).toList) :
    c = '-' ∨ c.isDigit = true := by
  cases n with
  | ofNat n =>
    have htext : (toString (Int.ofNat n)).toList = Nat.toDigits 10 n := toList_toString_natCast n
    rw [htext] at hc
    exact .inr (isDigit_of_mem_toDigits hc)
  | negSucc n =>
    rw [toList_toString_negSucc] at hc
    exact (List.mem_cons.mp hc).imp_right isDigit_of_mem_toDigits

/-- No blank comes up in a printed integer. -/
theorem isNumeralBlank_of_mem_toString {n : Int} {c : Char} (hc : c ∈ (toString n).toList) :
    isNumeralBlank c = false := by
  rcases eq_minus_or_isDigit hc with rfl | hdigit
  · decide
  · have hrange := Char.isDigit_iff_toNat.mp hdigit
    have hzero : '0'.toNat = 0x30 := rfl
    have hnine : '9'.toNat = 0x39 := rfl
    have hblank : isBlank c = false := by
      unfold isBlank
      simp only [Bool.or_eq_false_iff, Bool.and_eq_false_iff, decide_eq_false_iff_not,
        beq_eq_false_iff_ne]
      omega
    unfold isNumeralBlank
    rw [hblank, Bool.false_and]

theorem dropWhile_eq_self {p : Char → Bool} {cs : List Char} (h : ∀ c ∈ cs, p c = false) :
    cs.dropWhile p = cs := by
  rw [List.dropWhile_eq_self_iff]
  intro hne
  rw [h _ (List.getElem_mem hne)]
  exact Bool.false_ne_true

/-- Digits without underscores are the digits of a numeral. -/
theorem numeralDigits?_of_isDigit {ds : List Char} (hne : ds ≠ [])
    (hds : ∀ c ∈ ds, isDigit c = true) : numeralDigits? ds = some ds := by
  induction ds with
  | nil => exact absurd rfl hne
  | cons d ds ih =>
    have hd := hds d List.mem_cons_self
    cases ds with
    | nil => rw [numeralDigits?, if_pos hd]
    | cons e ds =>
      have hrest := ih (List.cons_ne_nil _ _) fun c hc => hds c (List.mem_cons_of_mem _ hc)
      -- the next character is a digit, and so no underscore
      have hnext : ∀ cs, e :: ds = '_' :: cs → False := by
        rintro cs ⟨rfl, rfl⟩
        have hunderscore := hds '_' (List.mem_cons_of_mem _ List.mem_cons_self)
        exact absurd hunderscore (by decide)
      rw [numeralDigits?, if_pos hd, hrest]
      · rfl
      · exact List.cons_ne_nil e ds
      · exact hnext

theorem natural?_toDigits (n : Nat) : natural? (Nat.toDigits 10 n) = some n := by
  have hdigits : ∀ c ∈ Nat.toDigits 10 n, isDigit c = true := fun c hc =>
    isDigit_of_isDigit (isDigit_of_mem_toDigits hc)
  unfold natural?
  rw [numeralDigits?_of_isDigit Nat.toDigits_ne_nil hdigits, Option.map_some, number_toDigits]

/-- **A printed integer is read back.** -/
theorem integer?_toString (n : Int) : integer? (toString n).toList = some n := by
  have hblank : ∀ c ∈ (toString n).toList, isNumeralBlank c = false := fun c hc =>
    isNumeralBlank_of_mem_toString hc
  unfold integer?
  rw [dropWhile_eq_self hblank, dropWhile_eq_self fun c hc => hblank c (List.mem_reverse.mp hc),
    List.reverse_reverse]
  dsimp only
  cases n with
  | ofNat n =>
    have htext : (toString (Int.ofNat n)).toList = Nat.toDigits 10 n := toList_toString_natCast n
    have hdigit : ∀ c ∈ (toString (Int.ofNat n)).toList, c.isDigit = true := by
      rw [htext]
      exact fun c hc => isDigit_of_mem_toDigits hc
    -- the first character is a digit, so there is no sign
    split
    · rename_i hsign
      rw [hsign] at hdigit
      exact absurd (hdigit '-' List.mem_cons_self) (by decide)
    · rename_i hsign
      rw [hsign] at hdigit
      exact absurd (hdigit '+' List.mem_cons_self) (by decide)
    · rw [htext, natural?_toDigits]
      rfl
  | negSucc n =>
    rw [toList_toString_negSucc]
    show (natural? (Nat.toDigits 10 (n + 1))).map (fun n => -(n : Int)) = some (Int.negSucc n)
    rw [natural?_toDigits]
    rfl

end ExpectedDiagnostics.Text
