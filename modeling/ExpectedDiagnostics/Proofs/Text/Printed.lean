import ExpectedDiagnostics.Decimal.Nearest
import ExpectedDiagnostics.Text.Digit
import Mathlib.Data.List.Basic
import Mathlib.Tactic.Common

/-!
# Printed numbers

A number is printed in the ten ASCII digits. They are the first digits of the table of all scripts,
so both ways to read digits, that of listings (`Text.number`) and that of documents
(`Decimal.ofDigits`), give the number back, and stop at the first character that is no digit.
-/

namespace ExpectedDiagnostics

/-- A printed number has digits only, and one at least. -/
theorem isDigit_of_mem_toDigits {n : Nat} {c : Char} (hc : c ∈ Nat.toDigits 10 n) :
    c.isDigit = true :=
  Nat.isDigit_of_mem_toDigits (by decide) (by decide) hc

theorem toList_toString_natCast (n : Nat) : (toString (n : Int)).toList = Nat.toDigits 10 n := by
  have hnat : toString (n : Int) = toString n := rfl
  rw [hnat, Nat.toString_eq_ofList_toDigits, String.toList_ofList]

theorem toList_toString_negSucc (n : Nat) :
    (toString (Int.negSucc n)).toList = '-' :: Nat.toDigits 10 (n + 1) := by
  have hneg : toString (Int.negSucc n) = "-" ++ toString (n + 1) := rfl
  rw [hneg, String.toList_append, show "-".toList = ['-'] from rfl,
    Nat.toString_eq_ofList_toDigits, String.toList_ofList, List.singleton_append]

namespace Text

/-- The longest beginning with a property ends where the rest begins with something that has it
not. -/
theorem takeWhile_append_stop {α : Type} {p : α → Bool} {xs rest : List α}
    (hxs : ∀ x ∈ xs, p x = true) (hrest : ∀ x ∈ rest.head?, p x = false) :
    (xs ++ rest).takeWhile p = xs ∧ (xs ++ rest).dropWhile p = rest := by
  rw [List.takeWhile_append_of_pos hxs, List.dropWhile_append_of_pos hxs]
  cases rest with
  | nil => exact ⟨List.append_nil xs, rfl⟩
  | cons c rest =>
    have hc : ¬ p c = true := by
      rw [hrest c rfl]
      exact Bool.false_ne_true
    rw [List.takeWhile_cons_of_neg hc, List.dropWhile_cons_of_neg hc, List.append_nil]
    exact ⟨rfl, rfl⟩

theorem digitValue?_of_isDigit {c : Char} (hc : c.isDigit = true) :
    digitValue? c = some (c.toNat - '0'.toNat) := by
  have hrange := Char.isDigit_iff_toNat.mp hc
  have hzero : '0'.toNat = 0x30 := rfl
  have hnine : '9'.toNat = 0x39 := rfl
  -- the ASCII zero is the first one that is looked at
  have hfirst : (decide (0x30 ≤ c.toNat) && decide (c.toNat < 0x30 + 10)) = true := by
    simp only [Bool.and_eq_true, decide_eq_true_eq]
    omega
  unfold digitValue?
  rw [show zeros = 0x30 :: zeros.tail from rfl, List.find?_cons, hfirst]
  rfl

theorem isDigit_of_isDigit {c : Char} (hc : c.isDigit = true) : isDigit c = true := by
  rw [isDigit, digitValue?_of_isDigit hc]
  rfl

theorem number_eq_ofDigitChars {ds : List Char} (hds : ∀ c ∈ ds, c.isDigit = true) :
    number ds = Nat.ofDigitChars 10 ds 0 := by
  unfold number
  rw [Nat.ofDigitChars_eq_foldl]
  -- both fold the same step, digit by digit
  apply List.foldl_ext
  intro n c hc
  rw [digitValue?_of_isDigit (hds c hc)]
  rfl

theorem number_toDigits (n : Nat) : number (Nat.toDigits 10 n) = n := by
  rw [number_eq_ofDigitChars fun _ => isDigit_of_mem_toDigits, Nat.ofDigitChars_ten_toDigits]

end Text

namespace Decimal

theorem isDigit_eq (c : Char) : isDigit c = c.isDigit := by
  rfl

theorem ofDigits_toDigits (n : Nat) : ofDigits (Nat.toDigits 10 n) = n := by
  unfold ofDigits
  rw [← Nat.ofDigitChars_eq_foldl, Nat.ofDigitChars_ten_toDigits]

end Decimal

end ExpectedDiagnostics
