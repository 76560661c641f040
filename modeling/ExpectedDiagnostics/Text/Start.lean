/-!
# How a text starts
-/

namespace ExpectedDiagnostics.Text

/-- The rest of a text that begins with another one. -/
def after? : List Char → List Char → Option (List Char)
  | [], cs => some cs
  | _ :: _, [] => none
  | p :: ps, c :: cs => if p == c then after? ps cs else none

/-- What follows the other text is what is left. -/
theorem after?_append (ps cs : List Char) : after? ps (ps ++ cs) = some cs := by
  induction ps with
  | nil => rfl
  | cons p ps ih => simpa [after?] using ih

/-- A text has something left exactly if it is the other text and what is left. -/
theorem eq_append_of_after? {ps cs rest : List Char} (h : after? ps cs = some rest) :
    cs = ps ++ rest := by
  induction ps generalizing cs with
  | nil => simpa [after?] using h
  | cons p ps ih =>
    cases cs with
    | nil => simp [after?] at h
    | cons c cs =>
      by_cases hpc : p = c
      · subst hpc
        simpa using ih (by simpa [after?] using h)
      · simp [after?, hpc] at h

end ExpectedDiagnostics.Text
