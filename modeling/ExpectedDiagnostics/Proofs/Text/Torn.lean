import ExpectedDiagnostics.Text.Torn
import Mathlib.Data.String.Basic
import Mathlib.Order.Compare

/-!
# Texts as pieces

A text without halves is its characters. What is done to it piece by piece is what is done to the
text: its runs of blanks are the same, and it comes before the same texts.

Main results:

* `collapsePieces_piecesOf` — collapsing the pieces of a text.
* `compare_piecesOf` — comparing the pieces of texts.
-/

namespace ExpectedDiagnostics.Text

/-! ## Characters and halves -/

theorem not_half_mem_piecesOf (s : String) (n : Nat) : .half n ∉ piecesOf s := by
  simp [piecesOf]

theorem filledPieces_piecesOf (f : Nat → Char) (s : String) : filledPieces f (piecesOf s) = s := by
  rw [filledPieces, piecesOf, List.map_map]
  exact (congrArg String.ofList (List.map_id _)).trans String.ofList_toList

theorem shownPieces_piecesOf (s : String) : shownPieces (piecesOf s) = s :=
  filledPieces_piecesOf _ s

theorem piecesOf_injective : Function.Injective piecesOf :=
  Function.LeftInverse.injective shownPieces_piecesOf

/-- Pieces without a half are those of the text that is shown. -/
theorem piecesOf_shownPieces {pieces : Torn} (h : ∀ n, .half n ∉ pieces) :
    piecesOf (shownPieces pieces) = pieces := by
  rw [piecesOf, shownPieces, filledPieces, String.toList_ofList, List.map_map]
  refine (List.map_congr_left fun p hp => ?_).trans (List.map_id _)
  cases p with
  | char c => rfl
  | half n => exact absurd hp (h n)

theorem piecesOf_append (s t : String) : piecesOf (s ++ t) = piecesOf s ++ piecesOf t := by
  rw [piecesOf, String.toList_append, List.map_append]
  rfl

theorem filledPieces_append (f : Nat → Char) (ps qs : Torn) :
    filledPieces f (ps ++ qs) = filledPieces f ps ++ filledPieces f qs := by
  rw [filledPieces, List.map_append, String.ofList_append]
  rfl

/-! ## Blanks -/

/-- **Collapsing the pieces of a text** is collapsing the text. -/
theorem collapsePieces_map_char (cs : List Char) :
    collapsePieces (cs.map .char) = (collapse cs).map .char := by
  induction cs with
  | nil => rfl
  | cons c cs ih =>
    have hnext : (cs.map Piece.char).head?.any Piece.isBlank = startsBlank cs := by
      cases cs <;> rfl
    rw [List.map_cons, collapsePieces, collapse, hnext, ih]
    show (if isBlank c = true then _ else _) = _
    split
    · split
      · rfl
      · rfl
    · rfl

theorem collapsePieces_piecesOf (s : String) :
    collapsePieces (piecesOf s) = piecesOf (.ofList (collapse s.toList)) := by
  rw [piecesOf, collapsePieces_map_char, piecesOf, String.toList_ofList]

/-! ## Order -/

instance : Std.OrientedOrd Piece :=
  inferInstanceAs (Std.OrientedCmp (compareOn Piece.number))

theorem compare_map_char_of_lt {cs ds : List Char} (h : cs < ds) :
    compare (cs.map Piece.char) (ds.map .char) = .lt := by
  induction cs generalizing ds with
  | nil =>
    cases ds with
    | nil => exact absurd h (lt_irrefl _)
    | cons d ds => rfl
  | cons c cs ih =>
    cases ds with
    | nil => exact absurd h (List.not_lt_nil _)
    | cons d ds =>
      rw [List.map_cons, List.map_cons, List.compare_cons_cons]
      rcases List.cons_lt_cons_iff.mp h with hlt | ⟨rfl, hlt⟩
      · have hnumber : compare (Piece.char c) (.char d) = .lt := Nat.compare_eq_lt.mpr hlt
        rw [hnumber]
        rfl
      · have hsame : compare (Piece.char c) (.char c) = .eq := Std.ReflCmp.compare_self
        rw [hsame, ih hlt]
        rfl

/-- **Comparing the pieces of texts** is comparing the texts. -/
theorem compare_piecesOf (s t : String) : compare (piecesOf s) (piecesOf t) = compare s t := by
  rcases lt_trichotomy s t with h | rfl | h
  · rw [compare_lt_iff_lt.mpr h]
    exact compare_map_char_of_lt (String.lt_iff_toList_lt.mp h)
  · rw [compare_eq_iff_eq.mpr rfl]
    exact Std.ReflCmp.compare_self
  · have hswap : compare (piecesOf s) (piecesOf t) = (compare (piecesOf t) (piecesOf s)).swap :=
      Std.OrientedCmp.eq_swap
    have hlt : compare (piecesOf t) (piecesOf s) = .lt :=
      compare_map_char_of_lt (String.lt_iff_toList_lt.mp h)
    rw [compare_gt_iff_gt.mpr h, hswap, hlt]
    rfl

end ExpectedDiagnostics.Text
