/-!
# Blanks

Which characters separate words, and the three operations on them that the rest of the library
needs: dropping them at the ends (`strip`), writing every run of them as one space (`collapse`),
and cutting a text at them (`words`).

Main result: collapsing leaves the space as the only blank (`eq_space_of_mem_collapse`).
-/

namespace ExpectedDiagnostics.Text

/-- Tells whether a character has the Unicode property of being white space, or is one of the
four information separators. The zero width space and the byte order mark are not blank. -/
def isBlank (c : Char) : Bool :=
  (9 ≤ c.toNat && c.toNat ≤ 13) || (28 ≤ c.toNat && c.toNat ≤ 32) || c.toNat == 0x85 ||
    c.toNat == 0xA0 || c.toNat == 0x1680 || (0x2000 ≤ c.toNat && c.toNat ≤ 0x200A) ||
    c.toNat == 0x2028 || c.toNat == 0x2029 || c.toNat == 0x202F || c.toNat == 0x205F ||
    c.toNat == 0x3000

/-- Drops the blanks at the front. -/
def stripLeft (cs : List Char) : List Char :=
  cs.dropWhile isBlank

/-- Drops the blanks at the end. -/
def stripRight (cs : List Char) : List Char :=
  (cs.reverse.dropWhile isBlank).reverse

/-- Drops the blanks at both ends. -/
def strip (cs : List Char) : List Char :=
  stripRight (stripLeft cs)

/-- Tells whether the text begins with a blank. -/
def startsBlank : List Char → Bool
  | [] => false
  | c :: _ => isBlank c

/-- Writes each run of blanks as a single space. The space stands for the last blank of the run. -/
def collapse : List Char → List Char
  | [] => []
  | c :: cs =>
    if isBlank c then
      if startsBlank cs then collapse cs else ' ' :: collapse cs
    else c :: collapse cs

/-- The longest pieces without a blank, in order. -/
def words : List Char → List (List Char)
  | [] => []
  | c :: cs =>
    if isBlank c then words cs
    else if startsBlank cs then [c] :: words cs
    else
      match words cs with
      | [] => [[c]]
      | w :: ws => (c :: w) :: ws

/-- Strips a text and collapses the blanks that remain inside. -/
def tidy (cs : List Char) : List Char :=
  collapse (strip cs)

/-! ## Small facts -/

theorem isBlank_space : isBlank ' ' = true := by decide

/-- The only blank of a collapsed text is the space. -/
theorem eq_space_of_mem_collapse {c : Char} {cs : List Char} (h : c ∈ collapse cs)
    (hb : isBlank c = true) : c = ' ' := by
  induction cs with
  | nil => simp [collapse] at h
  | cons d cs ih =>
    by_cases hd : isBlank d = true
    · by_cases hs : startsBlank cs = true
      · exact ih (by simpa [collapse, hd, hs] using h)
      · simp only [collapse, hd, hs, if_true, Bool.false_eq_true, if_false, List.mem_cons] at h
        exact h.elim id ih
    · simp only [collapse, hd, Bool.false_eq_true, if_false, List.mem_cons] at h
      rcases h with rfl | h
      · exact absurd hb hd
      · exact ih h

end ExpectedDiagnostics.Text
