import ExpectedDiagnostics.Diagnostic.Torn
import ExpectedDiagnostics.Proofs.Diagnostic.Tidy
import ExpectedDiagnostics.Proofs.Text.Torn

/-!
# Diagnostics without halves

Diagnostics whose texts have no halves are put in order and rid of repetitions as the diagnostics
that are shown, whether this is done before they are shown or after it.

Main results:

* `flat_reword` — the message on one line.
* `tidy_reword`, `shown_tidy_reword` — tidying diagnostics without halves.
-/

namespace ExpectedDiagnostics

open Text (Torn piecesOf shownPieces)

namespace Message

variable {T U V : Type}

mutual

theorem reword_reword (f : T → U) (g : U → V) (m : Message T) :
    (m.reword f).reword g = m.reword (g ∘ f) := by
  cases m with
  | text s => rfl
  | chain head next =>
    rw [reword, reword, reword, rewordAll_rewordAll f g next]
    rfl

theorem rewordAll_rewordAll (f : T → U) (g : U → V) (ms : List (Message T)) :
    rewordAll g (rewordAll f ms) = rewordAll (g ∘ f) ms := by
  cases ms with
  | nil => rfl
  | cons m ms =>
    rw [rewordAll, rewordAll, rewordAll, reword_reword f g m, rewordAll_rewordAll f g ms]

end

mutual

theorem reword_id (m : Message T) : m.reword id = m := by
  cases m with
  | text s => rfl
  | chain head next =>
    rw [reword, rewordAll_id next]
    rfl

theorem rewordAll_id (ms : List (Message T)) : rewordAll id ms = ms := by
  cases ms with
  | nil => rfl
  | cons m ms => rw [rewordAll, reword_id m, rewordAll_id ms]

end

theorem reword_shown (m : Message) : (m.reword piecesOf).reword shownPieces = m := by
  have hid : shownPieces ∘ piecesOf = id := funext Text.shownPieces_piecesOf
  rw [reword_reword, hid, reword_id]

mutual

theorem flatten_reword (lineEnd : String) (indent : Int) (m : Message) :
    (m.reword piecesOf).flatten lineEnd indent = piecesOf (m.flatten lineEnd indent) := by
  cases m with
  | text s => rfl
  | chain head next =>
    rw [reword, flatten, flatten, Text.piecesOf_append, Text.piecesOf_append,
      flattenAll_rewordAll lineEnd (indent + 1) next]
    rfl

theorem flattenAll_rewordAll (lineEnd : String) (indent : Int) (ms : List Message) :
    flattenAll lineEnd indent (rewordAll piecesOf ms) =
      piecesOf (flattenAll lineEnd indent ms) := by
  cases ms with
  | nil => rfl
  | cons m ms =>
    rw [rewordAll, flattenAll, flattenAll, Text.piecesOf_append, flatten_reword lineEnd indent m,
      flattenAll_rewordAll lineEnd indent ms]

end

/-- **The message on one line** of a message without halves. -/
theorem flat_reword (m : Message) : (m.reword piecesOf).flat = piecesOf m.flat := by
  rw [flat, flatten_reword]
  exact Text.collapsePieces_piecesOf _

end Message

namespace Diagnostic

theorem shown_reword (d : Diagnostic) : (d.reword piecesOf).shown = d := by
  obtain ⟨file, line, message, code, column, category⟩ := d
  unfold shown reword
  simp only [Option.map_map, Message.reword_shown, Text.shownPieces_piecesOf]
  cases file with
  | none => rfl
  | some file => rw [Option.map_some, Function.comp_apply, Text.shownPieces_piecesOf]

/-- The key of a diagnostic without halves. -/
theorem key_reword (d : Diagnostic) : (d.reword piecesOf).key =
    ⟨piecesOf d.key.file, d.key.line, d.key.column, d.key.code, piecesOf d.key.text⟩ := by
  unfold key reword
  dsimp only
  rw [Message.flat_reword]
  cases d.file with
  | none => rfl
  | some file => rfl

theorem le_reword (a b : Diagnostic) :
    (a.reword piecesOf).key.le (b.reword piecesOf).key = a.key.le b.key := by
  unfold Key.le Key.order
  rw [key_reword, key_reword]
  simp only [compareLex, compareOn, Text.compare_piecesOf]

theorem saysSame_reword (a b : Diagnostic) :
    (a.reword piecesOf).saysSame (b.reword piecesOf) = a.saysSame b := by
  have hcategory : ∀ d : Diagnostic, (d.reword piecesOf).category = piecesOf d.category :=
    fun _ => rfl
  rw [Bool.eq_iff_iff]
  unfold saysSame
  rw [key_reword, key_reword, hcategory, hcategory]
  simp only [Bool.and_eq_true, beq_iff_eq, Key.mk.injEq, Text.piecesOf_injective.eq_iff]
  generalize a.key = k
  generalize b.key = l
  cases k
  cases l
  simp only [Key.mk.injEq]

theorem dropRepeats_reword (last : Option Diagnostic) (ds : List Diagnostic) :
    dropRepeats (last.map (reword piecesOf)) (ds.map (reword piecesOf)) =
      (dropRepeats last ds).map (reword piecesOf) := by
  induction ds generalizing last with
  | nil => rfl
  | cons d ds ih =>
    have hlast : (last.map (reword piecesOf)).any (saysSame · (d.reword piecesOf)) =
        last.any (saysSame · d) := by
      cases last with
      | none => rfl
      | some e => exact saysSame_reword e d
    rw [List.map_cons, dropRepeats, dropRepeats, hlast]
    split
    · exact ih last
    · rw [List.map_cons, ← ih (some d)]
      rfl

/-- **Tidying diagnostics without halves** is tidying those that are shown. -/
theorem tidy_reword (ds : List Diagnostic) :
    tidy (ds.map (reword piecesOf)) = (tidy ds).map (reword piecesOf) := by
  have hsort : sort (ds.map (reword piecesOf)) = (sort ds).map (reword piecesOf) :=
    (List.map_mergeSort (f := reword piecesOf) fun a _ b _ => (le_reword a b).symm).symm
  unfold tidy
  rw [hsort]
  exact dropRepeats_reword none (sort ds)

theorem shown_tidy_reword (ds : List Diagnostic) :
    (tidy (ds.map (reword piecesOf))).map shown = tidy ds := by
  rw [tidy_reword, List.map_map]
  exact (List.map_congr_left fun d _ => shown_reword d).trans (List.map_id _)

end Diagnostic

end ExpectedDiagnostics
