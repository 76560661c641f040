import ExpectedDiagnostics.Proofs.Index.History
import Mathlib.Data.List.AList

/-!
# A dictionary of lines

The diagnostics of a file can also be kept in a dictionary, which has a list of diagnostics for each
line. An addition makes the list of its line if there is none, a take removes the list, and what is
left over is counted by the lists that are there. So it matters that none of them is empty, and a
`LineTable` carries the proof that it is so.

A dictionary stands for an index if it holds the same on every line (`LineTable.StandsFor`). Then
nothing that is asked of both of them tells one from the other.

Main results:

* `StandsFor.perform` / `StandsFor.afterAll` — both answer the same and go on alike, for one
  operation and for any number of them.
* `StandsFor.leftovers_eq`, `StandsFor.leftoverCount_eq`, `StandsFor.size_eq` — both tell the same
  of what is left over.
* `sameAsIndex` — the whole of it, for operations from the start.
-/

namespace ExpectedDiagnostics

/-- Diagnostics in lists by line, none of which is empty. -/
structure LineTable where
  lists : AList fun _ : Int => List Diagnostic
  filled : ∀ line, lists.lookup line ≠ some []

namespace LineTable

variable {t : LineTable} {ix : LineIndex}

/-- The diagnostics of a line. -/
def on (t : LineTable) (line : Int) : List Diagnostic :=
  (t.lists.lookup line).getD []

/-- A dictionary without lists. -/
def empty : LineTable where
  lists := ∅
  filled line := by rw [AList.lookup_empty]; exact nofun

/-- Puts a diagnostic at the end of the list of a line, which is made if there is none. -/
def add (t : LineTable) (line : Int) (d : Diagnostic) : LineTable where
  lists := t.lists.insert line (t.on line ++ [d])
  filled other := by
    by_cases hother : other = line
    · rw [hother, AList.lookup_insert, Ne, Option.some.injEq]
      exact List.append_ne_nil_of_right_ne_nil _ (List.cons_ne_nil _ _)
    · rw [AList.lookup_insert_ne hother]
      exact t.filled other

/-- Removes the list of a line. -/
def drop (t : LineTable) (line : Int) : LineTable where
  lists := t.lists.erase line
  filled other := by
    by_cases hother : other = line
    · rw [hother, AList.lookup_erase]
      exact nofun
    · rw [AList.lookup_erase_ne hother]
      exact t.filled other

/-- Tells the list of a line and removes it. -/
def take (t : LineTable) (line : Int) : List Diagnostic × LineTable :=
  (t.on line, t.drop line)

/-- The number of lists. -/
def leftoverCount (t : LineTable) : Nat :=
  t.lists.keys.length

/-- The lists one after the other, by line. -/
def leftovers (t : LineTable) : List Diagnostic :=
  (t.lists.keys.mergeSort fun a b => decide (a ≤ b)).flatMap t.on

/-- The number of diagnostics in the lists. -/
def size (t : LineTable) : Nat :=
  t.lists.entries.foldl (fun number list => number + list.2.length) 0

/-- What an operation answers, and the dictionary after it. -/
def perform (t : LineTable) : LineIndex.Operation → List Diagnostic × LineTable
  | .add line d => ([], t.add line d)
  | .take line => t.take line

/-! ## What is on a line -/

theorem on_add (t : LineTable) (line other : Int) (d : Diagnostic) :
    (t.add line d).on other = if line = other then t.on other ++ [d] else t.on other := by
  unfold on add
  by_cases h : line = other
  · rw [if_pos h, h, AList.lookup_insert, Option.getD_some]
    rfl
  · rw [if_neg h, AList.lookup_insert_ne fun heq => h heq.symm]

theorem on_drop (t : LineTable) (line other : Int) :
    (t.drop line).on other = if other = line then [] else t.on other := by
  unfold on drop
  by_cases h : other = line
  · rw [if_pos h, h, AList.lookup_erase, Option.getD_none]
  · rw [if_neg h, AList.lookup_erase_ne h]

/-- A line has a list if and only if it has diagnostics. -/
theorem mem_keys_iff {line : Int} : line ∈ t.lists.keys ↔ t.on line ≠ [] := by
  rw [← AList.mem_keys, ← AList.lookup_isSome, on]
  cases hlist : t.lists.lookup line with
  | none => simp
  | some ds =>
    have hds : ds ≠ [] := fun h => t.filled line (h ▸ hlist)
    simp [hds]

/-- The lists are those of the lines. -/
theorem flatMap_entries (t : LineTable) :
    t.lists.entries.flatMap (fun list => list.2) = t.lists.keys.flatMap t.on := by
  unfold AList.keys List.keys
  rw [List.flatMap_map]
  apply List.flatMap_congr
  intro list hlist
  have hlookup : t.lists.lookup list.1 = some list.2 := AList.mem_lookup_iff.mpr hlist
  rw [on, hlookup, Option.getD_some]

/-- Counting one list after the other, from any number on. -/
theorem foldl_length (lists : List (Sigma fun _ : Int => List Diagnostic)) (number : Nat) :
    lists.foldl (fun number list => number + list.2.length) number =
      number + (lists.flatMap fun list => list.2).length := by
  induction lists generalizing number with
  | nil => rfl
  | cons list lists ih =>
    rw [List.foldl_cons, ih, List.flatMap_cons, List.length_append, Nat.add_assoc]

theorem size_eq_length (t : LineTable) : t.size = (t.lists.keys.flatMap t.on).length := by
  rw [size, foldl_length, Nat.zero_add, flatMap_entries]

/-! ## Standing for an index -/

/-- A dictionary and an index that hold the same diagnostics on every line, in the same order. -/
def StandsFor (t : LineTable) (ix : LineIndex) : Prop :=
  ∀ line, t.on line = ix.on line

theorem standsFor_empty : empty.StandsFor .empty :=
  fun _ => rfl

namespace StandsFor

/-- **One operation** answers the same in both, and one still stands for the other. -/
theorem perform (h : t.StandsFor ix) (op : LineIndex.Operation) :
    (t.perform op).1 = (ix.perform op).1 ∧ (t.perform op).2.StandsFor (ix.perform op).2 := by
  cases op with
  | add line d =>
    refine ⟨rfl, fun other => ?_⟩
    show (t.add line d).on other = (ix.add line d).on other
    rw [on_add, LineIndex.on_add, h other]
  | take line =>
    refine ⟨h line, fun other => ?_⟩
    show (t.drop line).on other = (ix.drop line).on other
    rw [on_drop, LineIndex.on_drop, h other]

/-- **Any number of operations** are answered the same in both, and one still stands for the
other. -/
theorem afterAll (h : t.StandsFor ix) (ops : List LineIndex.Operation) :
    transcript LineTable.perform t ops = transcript LineIndex.perform ix ops ∧
      (afterAll LineTable.perform t ops).StandsFor (afterAll LineIndex.perform ix ops) := by
  induction ops generalizing t ix with
  | nil => exact ⟨rfl, h⟩
  | cons op ops ih =>
    obtain ⟨hanswer, hnext⟩ := h.perform op
    obtain ⟨hanswers, hend⟩ := ih hnext
    refine ⟨?_, hend⟩
    rw [transcript, transcript, hanswer, hanswers]

/-- The lines of the lists in ascending order are those that hold something in the index. -/
theorem ascending_keys (h : t.StandsFor ix) :
    (t.lists.keys.mergeSort fun a b => decide (a ≤ b)).Pairwise (· < ·) ∧
      ∀ line, line ∈ (t.lists.keys.mergeSort fun a b => decide (a ≤ b)) ↔ ix.on line ≠ [] := by
  constructor
  · exact LineIndex.pairwise_lt_mergeSort t.lists.keys_nodup
  · intro line
    rw [List.mem_mergeSort, mem_keys_iff, h line]

/-- The same is left over, in the same order. -/
theorem leftovers_eq (h : t.StandsFor ix) : t.leftovers = ix.leftovers := by
  obtain ⟨hascending, hlines⟩ := h.ascending_keys
  rw [(LineIndex.leftovers_eq_flatMap hascending hlines).1, leftovers]
  congr 1
  funext line
  exact h line

/-- As many lists are left over as there are lines. -/
theorem leftoverCount_eq (h : t.StandsFor ix) : t.leftoverCount = ix.leftoverCount := by
  obtain ⟨hascending, hlines⟩ := h.ascending_keys
  rw [(LineIndex.leftovers_eq_flatMap hascending hlines).2, List.length_mergeSort]
  rfl

/-- As many diagnostics are left over. -/
theorem size_eq (h : t.StandsFor ix) : t.size = ix.size := by
  -- the diagnostics of the lists are the leftovers, and so are those of the index
  have hperm := (List.mergeSort_perm t.lists.keys fun a b => decide (a ≤ b)).flatMap_right t.on
  have hindex : ix.leftovers.length = ix.size := by
    unfold LineIndex.leftovers LineIndex.size
    rw [List.length_map, List.length_mergeSort]
  rw [size_eq_length, ← hperm.length_eq, ← hindex, ← h.leftovers_eq]
  rfl

end StandsFor

/-- **Kept in a dictionary** that has no lists at first, diagnostics are told as an index that is
empty at first tells them: each operation answers the same, and in the end the same is left over and
counted. -/
theorem sameAsIndex (ops : List LineIndex.Operation) :
    transcript perform empty ops = transcript LineIndex.perform .empty ops ∧
      (afterAll perform empty ops).leftovers =
        (afterAll LineIndex.perform .empty ops).leftovers ∧
      (afterAll perform empty ops).leftoverCount =
        (afterAll LineIndex.perform .empty ops).leftoverCount ∧
      (afterAll perform empty ops).size = (afterAll LineIndex.perform .empty ops).size := by
  obtain ⟨hanswers, hend⟩ := standsFor_empty.afterAll ops
  exact ⟨hanswers, hend.leftovers_eq, hend.leftoverCount_eq, hend.size_eq⟩

end LineTable

end ExpectedDiagnostics
