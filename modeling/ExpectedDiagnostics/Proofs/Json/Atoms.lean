import ExpectedDiagnostics.Json.Reader
import ExpectedDiagnostics.Json.Writer
import ExpectedDiagnostics.Proofs.Text.Printed
import Mathlib.Data.Bool.AllAny

/-!
# Reading written characters and numbers

A character is written as itself or as an escape, and the reader takes one written character at a
time. Beyond the sixteen bits of a unit, a character is written as two escapes, which the reader
takes together.

The readers count the characters they pass, for the wording of faults. What they count on the way is
left open here (`Reads`).
-/

namespace ExpectedDiagnostics.Json

/-- A reading step gives a value and leaves a rest, wherever it says that the rest is. -/
def Reads {α : Type} (result : Except Fault (α × List Char × Nat)) (value : α)
    (rest : List Char) : Prop :=
  ∃ pos, result = .ok (value, rest, pos)

/-! ## Escapes -/

theorem hexValue?_digitChar : ∀ d < 16, hexValue? (Nat.digitChar d) = some d := by
  decide

/-- A unit is written in four digits, with zeros in front if it has fewer. -/
theorem hex_four {n : Nat} (hn : n < 0x10000) :
    Text.hex 4 n = [Nat.digitChar (n / 4096), Nat.digitChar (n / 256 % 16),
      Nat.digitChar (n / 16 % 16), Nat.digitChar (n % 16)] := by
  have hone : ∀ m, m < 16 → Nat.toDigits 16 m = [Nat.digitChar m] := fun m hm =>
    Nat.toDigits_of_lt_base hm
  have hmore : ∀ m, 16 ≤ m →
      Nat.toDigits 16 m = Nat.toDigits 16 (m / 16) ++ [Nat.digitChar (m % 16)] :=
    fun m hm => Nat.toDigits_of_base_le (by decide) hm
  unfold Text.hex
  rcases Nat.lt_or_ge n 16 with h | h
  · rw [hone n h, Nat.mod_eq_of_lt h, Nat.div_eq_of_lt (by omega : n < 4096),
      Nat.div_eq_of_lt (by omega : n < 256), Nat.div_eq_of_lt h]
    rfl
  rw [hmore n h]
  rcases Nat.lt_or_ge n 256 with h | h
  · rw [hone (n / 16) (by omega), Nat.mod_eq_of_lt (by omega : n / 16 < 16),
      Nat.div_eq_of_lt (by omega : n < 4096), Nat.div_eq_of_lt (by omega : n < 256)]
    rfl
  rw [hmore (n / 16) (by omega), Nat.div_div_eq_div_mul]
  rcases Nat.lt_or_ge n 4096 with h | h
  · rw [hone (n / (16 * 16)) (by omega), Nat.mod_eq_of_lt (by omega : n / 256 < 16),
      Nat.div_eq_of_lt (by omega : n < 4096)]
    rfl
  · rw [hmore (n / (16 * 16)) (by omega), Nat.div_div_eq_div_mul, hone _ (by omega)]
    rfl

/-- The digits of a unit write its number. -/
theorem exists_hex {n : Nat} (hn : n < 0x10000) :
    ∃ a b c d, Text.hex 4 n = [a, b, c, d] ∧ hex4? a b c d = some n := by
  refine ⟨_, _, _, _, hex_four hn, ?_⟩
  unfold hex4?
  rw [hexValue?_digitChar _ (by omega), hexValue?_digitChar _ (by omega),
    hexValue?_digitChar _ (by omega), hexValue?_digitChar _ (by omega)]
  simp only [Option.bind_eq_bind, Option.bind_some, Option.some.injEq]
  omega

/-- The escape of a unit that is a character by itself. -/
theorem readText_unitEscape {n : Nat} (hn : n < 0x10000) (hlone : n < 0xD800 ∨ 0xDFFF < n)
    (start fuel pos : Nat) {rest : List Char} (hrest : rest ≠ []) (done : List Text.Piece) :
    readText start (fuel + 1) (unitEscape n ++ rest) pos done =
      readText start fuel rest (pos + 6) (.char (Char.ofNat n) :: done) := by
  obtain ⟨a, b, c, d, hhex, hvalue⟩ := exists_hex hn
  have hhigh : (decide (0xD800 ≤ n) && decide (n ≤ 0xDBFF)) = false := by
    simp only [Bool.and_eq_false_iff, decide_eq_false_iff_not]
    omega
  have hlow : (decide (0xDC00 ≤ n) && decide (n ≤ 0xDFFF)) = false := by
    simp only [Bool.and_eq_false_iff, decide_eq_false_iff_not]
    omega
  have hmore : rest.isEmpty = false := by
    rw [List.isEmpty_eq_false_iff]
    exact hrest
  rw [unitEscape, hhex]
  simp [readText, hvalue, hmore, hhigh, hlow]

/-- The two escapes of a character beyond the units. -/
theorem readText_pair {n : Nat} (hn : n < 0x100000) (start fuel pos : Nat) {rest : List Char}
    (hrest : rest ≠ []) (done : List Text.Piece) :
    readText start (fuel + 1)
        (unitEscape (0xD800 + n / 0x400) ++ (unitEscape (0xDC00 + n % 0x400) ++ rest)) pos done =
      readText start fuel rest (pos + 12) (.char (Char.ofNat (0x10000 + n)) :: done) := by
  obtain ⟨a, b, c, d, hhex, hvalue⟩ := exists_hex (n := 0xD800 + n / 0x400) (by omega)
  obtain ⟨e, f, g, h, hhex', hvalue'⟩ := exists_hex (n := 0xDC00 + n % 0x400) (by omega)
  have hhigh : 0xD800 + n / 0x400 ≤ 0xDBFF := by omega
  have hlow : 0xDC00 + n % 0x400 ≤ 0xDFFF := by omega
  have hsum : 0x10000 + n / 0x400 * 0x400 + n % 0x400 = 0x10000 + n := by omega
  have hmore : rest.isEmpty = false := by
    rw [List.isEmpty_eq_false_iff]
    exact hrest
  rw [unitEscape, hhex, unitEscape, hhex']
  simp [readText, hvalue, hvalue', hmore, hhigh, hlow, hsum]

/-- A written character is read as itself. -/
theorem readText_escapedChar (c : Char) (start fuel pos : Nat) {rest : List Char}
    (hrest : rest ≠ []) (done : List Text.Piece) :
    ∃ next, readText start (fuel + 1) (escapedChar c ++ rest) pos done =
      readText start fuel rest next (.char c :: done) := by
  have hchar := c.valid
  have hnat : Char.ofNat c.toNat = c := Char.ofNat_toNat c
  have hvalid : c.toNat < 0xD800 ∨ 0xDFFF < c.toNat ∧ c.toNat < 0x110000 := hchar
  unfold escapedChar
  split_ifs with hmark hline hreturn htab hfeed hback hplain hunit
  · refine ⟨pos + 2, ?_⟩
    rw [Bool.or_eq_true, beq_iff_eq, beq_iff_eq] at hmark
    rcases hmark with rfl | rfl
    · simp [readText, shortEscape?]
    · simp [readText, shortEscape?]
  · exact ⟨pos + 2, by simp [readText, shortEscape?, eq_of_beq hline]⟩
  · exact ⟨pos + 2, by simp [readText, shortEscape?, eq_of_beq hreturn]⟩
  · exact ⟨pos + 2, by simp [readText, shortEscape?, eq_of_beq htab]⟩
  · exact ⟨pos + 2, by simp [readText, shortEscape?, eq_of_beq hfeed]⟩
  · exact ⟨pos + 2, by simp [readText, shortEscape?, eq_of_beq hback]⟩
  · rw [Bool.or_eq_true, beq_iff_eq, beq_iff_eq, not_or] at hmark
    rw [Bool.and_eq_true, decide_eq_true_eq, decide_eq_true_eq] at hplain
    have hcontrol : ¬ c.toNat ≤ 0x1F := by omega
    exact ⟨pos + 1, by simp [readText, hmark.1, hmark.2, hcontrol]⟩
  · refine ⟨pos + 6, ?_⟩
    rw [readText_unitEscape (by omega) (by omega) start fuel pos hrest, hnat]
  · refine ⟨pos + 12, ?_⟩
    have hsum : 0x10000 + (c.toNat - 0x10000) = c.toNat := by omega
    rw [List.append_assoc, readText_pair (by omega) start fuel pos hrest, hsum, hnat]

theorem escapedChar_ne_nil (c : Char) : escapedChar c ≠ [] := by
  unfold escapedChar unitEscape
  split_ifs
  all_goals exact List.cons_ne_nil _ _

/-! ## Numbers -/

/-- What can follow a value in a document: a comma, a closing bracket or a blank. -/
def closers : List Char :=
  [',', ']', '\x7d', ' ', '\t', '\n', '\r']

/-- A rest of a document that ends a value: nothing is left, or something that can follow it. -/
def Closes (rest : List Char) : Prop :=
  ∀ c ∈ rest.head?, c ∈ closers

theorem mem_closers_of_isBlank {c : Char} (hc : isBlank c = true) : c ∈ closers := by
  simp only [isBlank, Bool.or_eq_true, beq_iff_eq] at hc
  rcases hc with ((rfl | rfl) | rfl) | rfl
  all_goals decide

theorem closes_cons {c : Char} (hc : c ∈ closers) (rest : List Char) : Closes (c :: rest) := by
  intro d hd
  rwa [← Option.some.inj hd]

/-- Blanks in front of what can follow a value can follow it, too. -/
theorem closes_append {blanks : List Char} (h : ∀ c ∈ blanks, isBlank c = true) {c : Char}
    (hc : c ∈ closers) (rest : List Char) : Closes (blanks ++ c :: rest) := by
  cases blanks with
  | nil => exact closes_cons hc rest
  | cons b blanks => exact closes_cons (mem_closers_of_isBlank (h b List.mem_cons_self)) _

theorem head_toDigits {n : Nat} (hn : n ≠ 0) : ∀ c ∈ (Nat.toDigits 10 n).head?, c ≠ '0' := by
  induction n using Nat.strongRecOn with
  | ind n ih =>
    intro c hc
    rcases Nat.lt_or_ge n 10 with h | h
    · rw [Nat.toDigits_of_lt_base h] at hc
      obtain rfl := Option.some.inj hc
      rw [Ne, Nat.digitChar_eq_zero]
      exact hn
    · rw [Nat.toDigits_of_base_le (by decide) h,
        List.head?_append_of_ne_nil _ Nat.toDigits_ne_nil] at hc
      exact ih (n / 10) (by omega) (by omega) c hc

theorem Closes.not_isDigit {rest : List Char} (h : Closes rest) :
    ∀ c ∈ rest.head?, Decimal.isDigit c = false := by
  have hclosers : ∀ c ∈ closers, Decimal.isDigit c = false :=
    List.all_iff_forall_prop.mp (by decide)
  intro c hc
  exact hclosers c (h c hc)

/-- The digits of a natural number are read as the number, and nothing behind them belongs to it. -/
theorem readNumber_toDigits (n : Nat) {rest : List Char} (h : Closes rest) (start : Nat) :
    Reads (readNumber (Nat.toDigits 10 n ++ rest) start) (.int n) rest ∧
      Reads (readNumber ('-' :: (Nat.toDigits 10 n ++ rest)) start) (.int (-n)) rest := by
  have hdigits : ∀ c ∈ Nat.toDigits 10 n, Decimal.isDigit c = true := by
    intro c hc
    rw [Decimal.isDigit_eq]
    exact isDigit_of_mem_toDigits hc
  have htake := (Text.takeWhile_append_stop hdigits h.not_isDigit).1
  have hvalue := Decimal.ofDigits_toDigits n
  obtain ⟨d, ds, hds⟩ := List.exists_cons_of_ne_nil (Nat.toDigits_ne_nil (n := n) (b := 10))
  have hsign : d ≠ '-' := by
    rintro rfl
    have hminus := hdigits '-' (by rw [hds]; exact List.mem_cons_self)
    exact absurd hminus (by decide)
  have hclosers : ∀ c ∈ closers, c ≠ '.' ∧ (c == 'e' || c == 'E') = false :=
    List.all_iff_forall_prop.mp (by decide)
  have hpoint : ∀ c ∈ rest.head?, c ≠ '.' ∧ (c == 'e' || c == 'E') = false := by
    intro c hc
    exact hclosers c (h c hc)
  -- a number that begins with zero is zero
  have hzero : d = '0' → ds = [] := by
    intro hd
    by_contra hne
    have hhead := head_toDigits (n := n) (by
      rintro rfl
      rw [Nat.toDigits_zero] at hds
      exact hne (List.cons.inj hds).2.symm)
    exact hhead d (by rw [hds]; rfl) hd
  rw [hds] at htake hvalue ⊢
  rw [List.cons_append] at htake ⊢
  by_cases hd : d = '0'
  · obtain rfl := hzero hd
    subst hd
    cases rest with
    | nil => constructor <;> simp [Reads, readNumber, hvalue]
    | cons c rest =>
      obtain ⟨hdot, hexp⟩ := hpoint c rfl
      constructor <;> simp [Reads, readNumber, hexp, hvalue, hdot]
  · cases rest with
    | nil =>
      rw [List.append_nil] at htake ⊢
      constructor <;> simp [Reads, readNumber, hvalue, hd, hsign, htake]
    | cons c rest =>
      obtain ⟨hdot, hexp⟩ := hpoint c rfl
      constructor <;> simp [Reads, readNumber, hexp, hvalue, hdot, hd, hsign, htake]

end ExpectedDiagnostics.Json
