import ExpectedDiagnostics.Marker
import Mathlib.Data.List.Basic

/-!
# Where markers begin

The count of a text is the number of the places at which a marker begins (`positions`). A marker
that begins a piece of a text also begins the text from there on.
-/

namespace ExpectedDiagnostics.Marker

/-- A text that begins with a marker does so however it goes on. -/
theorem isSome_afterMarker?_of_isPrefix {cs ds : List Char} (hbegins : cs <+: ds)
    (h : (afterMarker? cs).isSome = true) : (afterMarker? ds).isSome = true := by
  obtain ⟨more, rfl⟩ := hbegins
  obtain ⟨rest, hrest⟩ := Option.isSome_iff_exists.mp h
  unfold afterMarker? at hrest
  split at hrest
  · rename_i rest'
    have htext := Text.eq_append_of_after? hrest
    -- the tag is not blank, so dropping blanks stops before it, with more text behind or without
    have hfull : (rest' ++ more).dropWhile (· == ' ') = tag :: token ++ (rest ++ more) := by
      rw [List.dropWhile_append, htext]
      simp
    rw [List.cons_append, List.cons_append, afterMarker?, hfull, Text.after?_append]
    rfl
  · exact absurd hrest (by simp)

/-- The places of a text at which a marker begins. -/
def positions (cs : List Char) : List Nat :=
  (List.range cs.length).filter fun i => (afterMarker? (cs.drop i)).isSome

theorem mem_positions {cs : List Char} {i : Nat} :
    i ∈ positions cs ↔ (afterMarker? (cs.drop i)).isSome = true := by
  unfold positions
  rw [List.mem_filter, List.mem_range]
  refine ⟨And.right, ?_⟩
  intro h
  refine ⟨?_, h⟩
  -- nothing is left from the end of the text on, and nothing begins with a marker there
  by_contra hlong
  rw [List.drop_eq_nil_of_le (by omega)] at h
  exact absurd h (by decide)

/-- The count of a text is the number of these places. -/
theorem length_positions (cs : List Char) : (positions cs).length = countIn cs := by
  induction cs with
  | nil => rfl
  | cons c cs ih =>
    -- the places in the tail are one further on
    have htail : ((List.range cs.length).map Nat.succ).filter
        (fun i => (afterMarker? ((c :: cs).drop i)).isSome) = (positions cs).map Nat.succ := by
      rw [List.filter_map]
      rfl
    rw [countIn, ← ih, positions, List.length_cons, List.range_succ_eq_map, List.filter_cons,
      List.drop_zero, htail]
    split
    · rw [List.length_cons, List.length_map, Nat.add_comm]
    · rw [List.length_map, Nat.zero_add]

end ExpectedDiagnostics.Marker
