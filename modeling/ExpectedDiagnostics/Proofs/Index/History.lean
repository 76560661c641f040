import ExpectedDiagnostics.Proofs.Index.Lines
import ExpectedDiagnostics.Proofs.Transcript
import Mathlib.Data.List.DropRight

/-!
# The history of a file's index

Diagnostics are added to an index and lines are taken from it, in any order. What the index answers
and what it holds in the end can be told from these operations alone, without the index: a take
answers what was added to its line since the line was last taken, and what is left over is what no
later operation takes.

Main results:

* `on_after` / `entries_after` — what is on a line, and what the index holds, told from the history.
* `perm_perform` / `perm_after` — nothing is lost and nothing is told twice, by one operation and by
  all of them.
* `history` — the whole of it, for an index that is empty at first.
-/

namespace ExpectedDiagnostics.LineIndex

/-- What an index is asked for. -/
inductive Operation
  | add (line : Int) (d : Diagnostic)
  | take (line : Int)

/-- What an operation answers, and the index after it. An addition answers nothing. -/
def perform (ix : LineIndex) : Operation → List Diagnostic × LineIndex
  | .add line d => ([], ix.add line d)
  | .take line => ix.take line

/-! ## What operations come to -/

namespace Operation

/-- The operation takes a line. -/
def takes (line : Int) : Operation → Bool
  | .add _ _ => false
  | .take other => other == line

/-- What the operation adds to a line. -/
def addsTo (line : Int) : Operation → Option Diagnostic
  | .add other d => if other = line then some d else none
  | .take _ => none

/-- What the operation adds. -/
def adds : Operation → Option Diagnostic
  | .add _ d => some d
  | .take _ => none

end Operation

/-- What is added to a line after it is last taken. -/
def sinceTaken (line : Int) (ops : List Operation) : List Diagnostic :=
  (ops.rtakeWhile fun op => !op.takes line).filterMap (·.addsTo line)

/-- What is added, each with its line, and not taken later. -/
def unclaimed : List Operation → List (Int × Diagnostic)
  | [] => []
  | .take _ :: later => unclaimed later
  | .add line d :: later =>
    if later.any (·.takes line) then unclaimed later else (line, d) :: unclaimed later

/-- What is added and not taken later, on one line. -/
def unclaimedOn (line : Int) (ops : List Operation) : List Diagnostic :=
  ((unclaimed ops).filter (·.1 == line)).map (·.2)

variable (ix : LineIndex) (op : Operation) (ops : List Operation) (line : Int)

/-! ## What is on a line -/

/-- One operation more: a take of the line empties it, and any other one leaves what was there, with
what it adds. -/
theorem sinceTaken_concat :
    sinceTaken line (ops ++ [op]) =
      if op.takes line then [] else sinceTaken line ops ++ (op.addsTo line).toList := by
  unfold sinceTaken
  rw [List.rtakeWhile_concat]
  by_cases htakes : op.takes line = true
  · rw [if_pos htakes, if_neg (by rw [htakes]; decide)]
    rfl
  · rw [if_neg htakes, if_pos (by rw [Bool.eq_false_iff.mpr htakes]; rfl), List.filterMap_append]
    congr 1

/-- The index does the same. -/
theorem on_perform :
    (ix.perform op).2.on line =
      if op.takes line then [] else ix.on line ++ (op.addsTo line).toList := by
  cases op with
  | add other d =>
    show (ix.add other d).on line = ix.on line ++ (if other = line then some d else none).toList
    rw [on_add]
    split
    · rfl
    · rw [Option.toList_none, List.append_nil]
  | take other =>
    show (ix.drop other).on line = if (other == line) = true then [] else ix.on line ++ []
    rw [on_drop, List.append_nil]
    by_cases h : line = other
    · rw [if_pos h, if_pos (beq_iff_eq.mpr h.symm)]
    · rw [if_neg h, if_neg (mt beq_iff_eq.mp fun heq => h heq.symm)]

/-- **What is on a line** is what has been added to it since it was last taken. -/
theorem on_after : (afterAll perform empty ops).on line = sinceTaken line ops := by
  induction ops using List.reverseRecOn with
  | nil => rfl
  | append_singleton ops op ih =>
    -- the last operation does the same to the line of the index and to the history
    rw [afterAll_append, sinceTaken_concat, ← ih]
    exact on_perform (afterAll perform empty ops) op line

/-! ## What is left over -/

/-- **What an index holds**: of what it held before, the lines that no operation takes, and then
what the operations add and do not take later. -/
theorem entries_after :
    (afterAll perform ix ops).entries =
      ix.entries.filter (fun e => !ops.any (·.takes e.1)) ++ unclaimed ops := by
  induction ops generalizing ix with
  | nil => simp [afterAll, unclaimed]
  | cons op ops ih =>
    rw [afterAll, ih]
    cases op with
    | add line d =>
      -- what is added is kept if no later operation takes its line
      show (ix.entries ++ [(line, d)]).filter _ ++ unclaimed ops = _
      rw [List.filter_append, List.append_assoc, List.filter_singleton]
      congr 1
      show _ = if ops.any (·.takes line) then unclaimed ops else (line, d) :: unclaimed ops
      cases ops.any (·.takes line) with
      | true => rfl
      | false => rfl
    | take line =>
      -- what is not on the line is what is kept by the take
      show (ix.entries.filter (·.1 != line)).filter _ ++ unclaimed ops = _
      rw [List.filter_filter]
      congr 1
      apply List.filter_congr
      intro e _
      show (!ops.any (·.takes e.1) && e.1 != line) = !(line == e.1 || ops.any (·.takes e.1))
      rw [Bool.not_or, Bool.and_comm, Bool.beq_comm]
      rfl

theorem perm_leftovers : ix.leftovers.Perm (ix.entries.map (·.2)) :=
  (List.mergeSort_perm ix.entries _).map _

/-- What one operation adds goes to what it answers or is left over, with what was there. -/
theorem perm_perform :
    (ix.leftovers ++ op.adds.toList).Perm ((ix.perform op).1 ++ (ix.perform op).2.leftovers) := by
  refine ((perm_leftovers ix).append_right _).trans ?_
  refine List.Perm.trans ?_ ((perm_leftovers (ix.perform op).2).append_left _).symm
  cases op with
  | add line d =>
    show (ix.entries.map Prod.snd ++ [d]).Perm ((ix.entries ++ [(line, d)]).map Prod.snd)
    rw [List.map_append]
    exact List.Perm.refl _
  | take line =>
    -- the entries on the line are answered, and the other ones stay
    have hparts := (List.filter_append_perm (fun e : Int × Diagnostic => e.1 == line)
      ix.entries).symm.map Prod.snd
    rw [List.map_append] at hparts
    show (ix.entries.map Prod.snd ++ []).Perm _
    rw [List.append_nil]
    exact hparts

/-- **Nothing is lost, and nothing is told twice.** -/
theorem perm_after :
    (ix.leftovers ++ ops.filterMap (·.adds)).Perm
      ((transcript perform ix ops).flatMap (·.2) ++ (afterAll perform ix ops).leftovers) := by
  induction ops generalizing ix with
  | nil =>
    show (ix.leftovers ++ []).Perm ix.leftovers
    rw [List.append_nil]
  | cons op ops ih =>
    have hadds : (op :: ops).filterMap (·.adds) = op.adds.toList ++ ops.filterMap (·.adds) := by
      rw [List.filterMap_cons]
      cases op.adds with
      | none => rfl
      | some d => rfl
    rw [hadds, ← List.append_assoc]
    show List.Perm _
      (((ix.perform op).1 ++ (transcript perform (ix.perform op).2 ops).flatMap (·.2)) ++ _)
    -- the first operation answers, and what it leaves is there for the others
    refine ((perm_perform ix op).append_right _).trans ?_
    rw [List.append_assoc, List.append_assoc]
    exact (ih (ix.perform op).2).append_left _

theorem leftoverCount_eq_zero_iff_leftovers : ix.leftoverCount = 0 ↔ ix.leftovers = [] := by
  rw [leftoverCount_eq_zero_iff, List.eq_nil_iff_forall_not_mem]
  simp only [List.eq_nil_iff_forall_not_mem, mem_on, mem_leftovers, not_exists]
  exact forall_comm

/-! ## From the start -/

theorem leftovers_empty : empty.leftovers = [] := by
  simp [leftovers, empty]

theorem entries_after_empty : (afterAll perform empty ops).entries = unclaimed ops :=
  entries_after empty ops

/-- **The history of an index** that is empty at first. Each take answers what has been added to its
line since the line was last taken. What is added is in one answer or left over. What is left over
is what is not taken later, line after line in ascending order, and on one line in the order in
which it was added; it is counted by line and by diagnostic. -/
theorem history (ops : List Operation) :
    (∀ i line, ops[i]? = some (.take line) →
        (transcript perform empty ops)[i]? = some (.take line, sinceTaken line (ops.take i))) ∧
      (ops.filterMap (·.adds)).Perm
        ((transcript perform empty ops).flatMap (·.2) ++ (afterAll perform empty ops).leftovers) ∧
      (∃ lines : List Int, lines.Pairwise (· < ·) ∧
        (∀ line, line ∈ lines ↔ ∃ d, (line, d) ∈ unclaimed ops) ∧
        (afterAll perform empty ops).leftovers = lines.flatMap (unclaimedOn · ops) ∧
        (afterAll perform empty ops).leftoverCount = lines.length) ∧
      (afterAll perform empty ops).size = (unclaimed ops).length ∧
      ((afterAll perform empty ops).leftoverCount = 0 ↔
        (afterAll perform empty ops).leftovers = []) := by
  have hentries := entries_after_empty ops
  have hon : ∀ line, (afterAll perform empty ops).on line = unclaimedOn line ops := by
    intro line
    unfold on unclaimedOn
    rw [hentries]
  have hperm := perm_after empty ops
  rw [leftovers_empty, List.nil_append] at hperm
  refine ⟨?_, hperm, ?_, congrArg List.length hentries, leftoverCount_eq_zero_iff_leftovers _⟩
  · intro i line hop
    -- it is answered what is on the line at that time
    rw [getElem?_transcript perform empty ops hop, ← on_after]
    rfl
  · obtain ⟨lines, hascending, hlines⟩ := exists_ascending_lines (afterAll perform empty ops)
    obtain ⟨hleftovers, hcount⟩ := leftovers_eq_flatMap hascending hlines
    refine ⟨lines, hascending, ?_, ?_, hcount⟩
    · intro line
      rw [hlines, Ne, List.eq_nil_iff_forall_not_mem]
      simp only [mem_on, hentries, not_forall, not_not]
    · rw [hleftovers]
      congr 1
      funext line
      exact hon line

/-- A diagnostic that is known by its code. -/
def coded (code : Int) : Diagnostic :=
  ⟨none, 0, .text "", code, 0, "error"⟩

/-- A line is taken twice: the second time, it answers what has come after the first time. -/
theorem history_takenTwice :
    (transcript perform empty [.add 3 (coded 1), .take 3, .add 3 (coded 2), .add 1 (coded 3),
      .add 3 (coded 4), .take 3])[5]? = some (.take 3, [coded 2, coded 4]) :=
  (history [.add 3 (coded 1), .take 3, .add 3 (coded 2), .add 1 (coded 3), .add 3 (coded 4),
    .take 3]).1 5 3 rfl

end ExpectedDiagnostics.LineIndex
