import ExpectedDiagnostics.Proofs.Counts
import ExpectedDiagnostics.Proofs.Run.File
import ExpectedDiagnostics.Proofs.Run.Operations
import Mathlib.Algebra.Ring.Int.Defs

/-!
# The accounts of a run

Beside a run a ledger is kept, which only writes down what was asked for and answered: which file
was opened, what was recorded for it since, which summaries were given, and which files were given
up. Nothing is counted in it. Whatever operations are asked for, in whatever order, the counters of
the run agree with the ledger.

Main results:

* `Agrees.perform` — each operation, be it one that fails, keeps run and ledger in agreement.
* `agrees_history` — so they agree after any sequence of operations.
* `accounts_history` — what this says of the totals, the files, the summaries and the exit status.
-/

namespace ExpectedDiagnostics.Run

/-- A file that was opened, with what was recorded for it since: the outcomes, and the indexes with
which it was to be finished. -/
structure FileRecord where
  source : Source
  outcomes : List Outcome
  indexes : List LineIndex

/-- What was done in a run: the open file, the files that were finished with the summaries given for
them, and the files that were given up. -/
structure Ledger where
  opened : Option FileRecord
  finished : List (FileRecord × FileSummary)
  aborted : List FileRecord

namespace Ledger

def empty : Ledger := ⟨none, [], []⟩

/-- Writes down an operation and its answer. A failure leaves a trace only where a file was to be
finished, because then its leftovers have been looked at. -/
def enter (l : Ledger) : Operation → Answer → Ledger
  | .beginFile source, .nothing => { l with opened := some ⟨source, [], []⟩ }
  | .record o, .nothing =>
    { l with opened := l.opened.map fun f => { f with outcomes := f.outcomes ++ [o] } }
  | .finishFile index, .file summary =>
    { l with
      opened := none
      finished := l.finished ++ l.opened.toList.map fun f =>
        ({ f with indexes := f.indexes ++ [index] }, summary) }
  | .finishFile index, .failed _ =>
    { l with opened := l.opened.map fun f => { f with indexes := f.indexes ++ [index] } }
  | .abortFile _, .nothing =>
    { l with opened := none, aborted := l.aborted ++ l.opened.toList }
  | _, _ => l

section

variable {l : Ledger} {f : FileRecord} (hopened : l.opened = some f)

include hopened

theorem enter_record (o : Outcome) : l.enter (.record o) .nothing =
    { l with opened := some { f with outcomes := f.outcomes ++ [o] } } := by
  rw [enter, hopened, Option.map_some]

theorem enter_finishFile (index : LineIndex) (summary : FileSummary) :
    l.enter (.finishFile index) (.file summary) =
      { l with
        opened := none
        finished := l.finished ++ [({ f with indexes := f.indexes ++ [index] }, summary)] } := by
  rw [enter, hopened]
  rfl

theorem enter_finishFile_failed (index : LineIndex) (failure : Failure) :
    l.enter (.finishFile index) (.failed failure) =
      { l with opened := some { f with indexes := f.indexes ++ [index] } } := by
  rw [enter, hopened, Option.map_some]

theorem enter_abortFile (problem : Problem) : l.enter (.abortFile problem) .nothing =
    { l with opened := none, aborted := l.aborted ++ [f] } := by
  rw [enter, hopened]
  rfl

end

end Ledger

/-- One operation, for the run and for the ledger. -/
def advance (state : Run × Ledger) (op : Operation) : Run × Ledger :=
  let (next, answer) := state.1.perform op
  (next, state.2.enter op answer)

/-- The run and the ledger after a sequence of operations. -/
def history (unexpected : Bool) (ops : List Operation) : Run × Ledger :=
  ops.foldl advance (start unexpected, .empty)

/-- The counts of a file by what was recorded for it. -/
def FileRecord.counts (f : FileRecord) : Counts :=
  ⟨f.outcomes.countP (·.ok), f.outcomes.countP (!·.ok),
    (f.indexes.map fun ix => (ix.leftoverCount : Int)).sum⟩

def FileRecord.failures (f : FileRecord) : List Outcome :=
  f.outcomes.filter (!·.ok)

/-- The summary that an event tells of. -/
def summaryOf? : Event → Option FileSummary
  | .finished summary => some summary
  | _ => none

/-- An event that tells of no summary leaves the summaries as they are. -/
theorem summaries_tell (run : Run) {e : Event} (he : summaryOf? e = none) :
    (run.tell e).events.filterMap summaryOf? = run.events.filterMap summaryOf? := by
  unfold tell
  rw [List.filterMap_append, List.filterMap_cons_none he, List.filterMap_nil, List.append_nil]

/-! ## Counts of a file -/

theorem nonnegative_counts (f : FileRecord) : f.counts.Nonnegative := by
  refine ⟨Int.natCast_nonneg _, Int.natCast_nonneg _, List.sum_nonneg ?_⟩
  intro n hn
  obtain ⟨ix, -, rfl⟩ := List.mem_map.mp hn
  exact Int.natCast_nonneg _

theorem checks_counts (f : FileRecord) : f.counts.checks = f.outcomes.length :=
  checks_countsOf f.outcomes .empty

theorem countOutcome_counts (f : FileRecord) (o : Outcome) :
    countOutcome f.counts o = { f with outcomes := f.outcomes ++ [o] : FileRecord }.counts := by
  unfold countOutcome FileRecord.counts
  cases hok : o.ok <;> simp [hok]

theorem withLeftovers_counts (f : FileRecord) (index : LineIndex) :
    withLeftovers f.counts index =
      { f with indexes := f.indexes ++ [index] : FileRecord }.counts := by
  unfold withLeftovers FileRecord.counts
  simp

theorem failures_record (f : FileRecord) (o : Outcome) :
    (if o.ok then f.failures else f.failures ++ [o]) =
      { f with outcomes := f.outcomes ++ [o] : FileRecord }.failures := by
  unfold FileRecord.failures
  cases hok : o.ok <;> simp [hok]

/-! ## Agreement -/

/-- The summary given for a file says what was recorded for it, as many annotations as the text has
markers, and whether this is a pass. -/
structure Summarizes (unexpected : Bool) (f : FileRecord) (summary : FileSummary) : Prop where
  path : summary.path = f.source.path.toString
  counts : summary.counts = f.counts
  failures : summary.failures = f.failures
  markers : summary.counts.checks = Marker.count f.source.text
  passed : summary.passed = summary.counts.passed unexpected

/-- A run agrees with the ledger that is kept beside it. -/
structure Agrees (unexpected : Bool) (run : Run) (l : Ledger) : Prop where
  setting : run.unexpected = unexpected
  totals : run.totals = (l.finished.map fun f => f.1.counts).sum
  fileCount : run.fileCount = l.finished.length + l.aborted.length
  aborted : run.aborted = l.aborted.map fun f => f.source.path.toString
  told : run.events.filterMap summaryOf? = l.finished.map (·.2)
  current : run.current = l.opened.map (·.source)
  counts : ∀ f, l.opened = some f → run.counts = f.counts
  failures : ∀ f, l.opened = some f → run.failures = f.failures
  finished : ∀ f ∈ l.finished, Summarizes unexpected f.1 f.2

variable {unexpected : Bool} {run : Run} {l : Ledger}

theorem agrees_start : Agrees unexpected (start unexpected) .empty where
  setting := rfl
  totals := rfl
  fileCount := rfl
  aborted := rfl
  told := rfl
  current := rfl
  counts f hf := absurd hf (by simp [Ledger.empty])
  failures f hf := absurd hf (by simp [Ledger.empty])
  finished f hf := absurd hf List.not_mem_nil

namespace Agrees

/-- What the ledger says of the open file, if there is one. -/
theorem opened_cases (h : Agrees unexpected run l) :
    (l.opened = none ∧ run.current = none) ∨
      ∃ f, l.opened = some f ∧ run.current = some f.source ∧ run.counts = f.counts ∧
        run.failures = f.failures := by
  cases hopened : l.opened with
  | none => exact .inl ⟨rfl, by rw [h.current, hopened, Option.map_none]⟩
  | some f =>
    refine .inr ⟨f, rfl, ?_, h.counts f hopened, h.failures f hopened⟩
    rw [h.current, hopened, Option.map_some]

theorem perform_beginFile (h : Agrees unexpected run l) (source : Source) :
    Agrees unexpected (run.perform (.beginFile source)).1
      (l.enter (.beginFile source) (run.perform (.beginFile source)).2) := by
  rcases h.opened_cases with ⟨-, hclosed⟩ | ⟨f, -, hopen, -, -⟩
  · rw [Run.perform_beginFile hclosed]
    -- nothing is recorded for the new file yet
    have hnew : ∀ f, (some ⟨source, [], []⟩ : Option FileRecord) = some f →
        Counts.zero = f.counts ∧ ([] : List Outcome) = f.failures := by
      rintro f hf
      obtain rfl := Option.some.inj hf
      exact ⟨rfl, rfl⟩
    exact { h with
      told := (summaries_tell _ rfl).trans h.told
      current := rfl
      counts := fun f hf => (hnew f hf).1
      failures := fun f hf => (hnew f hf).2 }
  · rw [perform_beginFile_open hopen]
    exact h

theorem perform_record (h : Agrees unexpected run l) (o : Outcome) :
    Agrees unexpected (run.perform (.record o)).1
      (l.enter (.record o) (run.perform (.record o)).2) := by
  rcases h.opened_cases with ⟨-, hclosed⟩ | ⟨f, hopened, hopen, hcounts, hfailures⟩
  · rw [perform_record_closed hclosed]
    exact h
  · rw [Run.perform_record hopen]
    dsimp only
    rw [Ledger.enter_record hopened]
    exact { h with
      told := (summaries_tell _ rfl).trans h.told
      current := hopen
      counts := by
        intro g hg
        obtain rfl := Option.some.inj hg
        rw [← countOutcome_counts, ← hcounts]
        rfl
      failures := by
        intro g hg
        obtain rfl := Option.some.inj hg
        rw [← failures_record, ← hfailures]
        rfl }

/-- The summary that finishes the open file says what was recorded for it. -/
theorem summarizes (h : Agrees unexpected run l) {f : FileRecord} (hopened : l.opened = some f)
    (hcount : (Marker.count f.source.text : Int) = run.counts.checks) (index : LineIndex) :
    Summarizes unexpected { f with indexes := f.indexes ++ [index] }
      (run.fileSummary f.source { f with indexes := f.indexes ++ [index] : FileRecord }.counts
        index) where
  path := rfl
  counts := rfl
  failures := h.failures f hopened
  markers := by
    rw [hcount, h.counts f hopened]
    rfl
  passed := by
    rw [← h.setting]
    rfl

theorem perform_finishFile (h : Agrees unexpected run l) (index : LineIndex) :
    Agrees unexpected (run.perform (.finishFile index)).1
      (l.enter (.finishFile index) (run.perform (.finishFile index)).2) := by
  rcases h.opened_cases with ⟨hnone, hclosed⟩ | ⟨f, hopened, hopen, hcounts, hfailures⟩
  · rw [perform_finishFile_closed hclosed]
    have hentered : l.enter (.finishFile index) (.failed .noFile) = l := by
      rw [Ledger.enter, hnone, Option.map_none, ← hnone]
    rw [hentered]
    exact h
  · -- with the index among those that were looked at, these are the counts of the file
    have hleft : withLeftovers run.counts index =
        { f with indexes := f.indexes ++ [index] : FileRecord }.counts := by
      rw [hcounts, withLeftovers_counts]
    by_cases hcount : (Marker.count f.source.text : Int) = run.counts.checks
    · rw [Run.perform_finishFile hopen hcount]
      dsimp only
      rw [Ledger.enter_finishFile hopened, hleft]
      exact { h with
        totals := by
          show run.totals + _ = _
          rw [h.totals, List.map_append, List.sum_append, List.map_singleton, List.sum_singleton]
        fileCount := by
          show run.fileCount + 1 = (l.finished ++ [_]).length + l.aborted.length
          rw [h.fileCount, List.length_append, List.length_singleton]
          omega
        told := by
          show (run.events ++ [_]).filterMap summaryOf? = _
          rw [List.filterMap_append, h.told, List.map_append]
          rfl
        current := rfl
        counts := fun g hg => absurd hg (by simp)
        failures := fun g hg => absurd hg (by simp)
        finished := by
          intro g hg
          rcases List.mem_append.mp hg with hg | hg
          · exact h.finished g hg
          · rw [List.mem_singleton.mp hg]
            exact h.summarizes hopened hcount index }
    · rw [Run.perform_finishFile_mismatch hopen hcount]
      dsimp only
      rw [Ledger.enter_finishFile_failed hopened]
      exact { h with
        current := hopen
        counts := by
          intro g hg
          obtain rfl := Option.some.inj hg
          exact hleft
        failures := by
          intro g hg
          obtain rfl := Option.some.inj hg
          exact hfailures }

theorem perform_abortFile (h : Agrees unexpected run l) (problem : Problem) :
    Agrees unexpected (run.perform (.abortFile problem)).1
      (l.enter (.abortFile problem) (run.perform (.abortFile problem)).2) := by
  rcases h.opened_cases with ⟨-, hclosed⟩ | ⟨f, hopened, hopen, -, -⟩
  · rw [perform_abortFile_closed hclosed]
    exact h
  · rw [Run.perform_abortFile hopen]
    dsimp only
    rw [Ledger.enter_abortFile hopened]
    -- what was recorded for the file goes nowhere: the totals stay as they are
    exact { h with
      fileCount := by
        show run.fileCount + 1 = l.finished.length + (l.aborted ++ [f]).length
        rw [h.fileCount, List.length_append, List.length_singleton]
        omega
      aborted := by
        show run.aborted ++ _ = _
        rw [h.aborted, List.map_append]
        rfl
      told := (summaries_tell _ rfl).trans h.told
      current := rfl
      counts := fun g hg => absurd hg (by simp)
      failures := fun g hg => absurd hg (by simp) }

theorem perform_finish (h : Agrees unexpected run l) :
    Agrees unexpected (run.perform .finish).1
      (l.enter .finish (run.perform .finish).2) := by
  rcases h.opened_cases with ⟨-, hclosed⟩ | ⟨f, -, hopen, -, -⟩
  · rw [Run.perform_finish hclosed]
    exact { h with
      told := (summaries_tell _ rfl).trans h.told }
  · rw [perform_finish_open hopen]
    exact h

/-- Every operation keeps run and ledger in agreement, also one that fails. -/
theorem perform (h : Agrees unexpected run l) (op : Operation) :
    Agrees unexpected (run.perform op).1 (l.enter op (run.perform op).2) := by
  cases op with
  | beginFile source => exact h.perform_beginFile source
  | record o => exact h.perform_record o
  | finishFile index => exact h.perform_finishFile index
  | abortFile problem => exact h.perform_abortFile problem
  | finish => exact h.perform_finish

end Agrees

/-- From a state of agreement, every sequence of operations leads to another one. -/
theorem Agrees.foldl {state : Run × Ledger} (h : Agrees unexpected state.1 state.2)
    (ops : List Operation) :
    Agrees unexpected (ops.foldl advance state).1 (ops.foldl advance state).2 := by
  induction ops generalizing state with
  | nil => exact h
  | cons op ops ih => exact ih (h.perform op)

theorem agrees_history (unexpected : Bool) (ops : List Operation) :
    Agrees unexpected (history unexpected ops).1 (history unexpected ops).2 := by
  have hstart : Agrees unexpected (start unexpected, Ledger.empty).1 (start unexpected, .empty).2 :=
    agrees_start
  exact hstart.foldl ops

/-! ## The accounts -/

/-- What the counters of a run say, by the ledger. -/
structure Accounts (run : Run) (l : Ledger) : Prop where
  /-- The totals are the sums of the counts of all summaries that were given. -/
  totals : run.totals = (l.finished.map fun f => f.2.counts).sum
  told : run.events.filterMap summaryOf? = l.finished.map (·.2)
  fileCount : run.fileCount = l.finished.length + l.aborted.length
  aborted : run.aborted = l.aborted.map fun f => f.source.path.toString
  current : run.current = l.opened.map (·.source)
  /-- As many annotations of the open file are counted as outcomes were recorded for it. -/
  checks : ∀ f, l.opened = some f → run.counts.checks = f.outcomes.length
  failures : ∀ f, l.opened = some f → run.failures = f.outcomes.filter (!·.ok)
  markers : ∀ f ∈ l.finished, f.2.counts.checks = Marker.count f.1.source.text
  summaryFailures : ∀ f ∈ l.finished, (f.2.failures.length : Int) = f.2.counts.failures
  /-- Nothing but what was recorded for finished files reaches the totals. -/
  finishedOnly : run.totals = (l.finished.map fun f => f.1.counts).sum
  /-- A run can end exactly if no file is open. -/
  finish : (∃ next summary, run.finish = .ok (next, summary)) ↔ l.opened = none
  /-- It passes exactly if no file was given up and every summary says that its file has passed. -/
  exitStatus : ∀ next summary, run.finish = .ok (next, summary) →
    (summary.exitStatus = 0 ↔ l.aborted = [] ∧ ∀ f ∈ l.finished, f.2.passed = true)

/-- A run in agreement with the ledger passes exactly if no file was given up and all finished files
have passed. -/
theorem Agrees.passed_iff (h : Agrees unexpected run l) :
    run.summary.passed = true ↔ l.aborted = [] ∧ ∀ f ∈ l.finished, f.2.passed = true := by
  have hnonneg : ∀ c ∈ l.finished.map (fun f => f.1.counts), c.Nonnegative := by
    intro c hc
    obtain ⟨f, -, rfl⟩ := List.mem_map.mp hc
    exact nonnegative_counts f.1
  have hpassed : ∀ f ∈ l.finished, f.2.passed = f.1.counts.passed unexpected := by
    intro f hf
    rw [(h.finished f hf).passed, (h.finished f hf).counts]
  unfold summary
  dsimp only
  rw [Bool.and_eq_true, h.totals, h.setting, Counts.passed_sum_iff hnonneg, List.forall_mem_map,
    h.aborted, List.isEmpty_iff, List.map_eq_nil_iff, and_comm]
  refine and_congr_right fun _ => forall₂_congr fun f hf => ?_
  rw [hpassed f hf]

/-- **The accounts of a run are right** after any sequence of operations. -/
theorem accounts_history (unexpected : Bool) (ops : List Operation) :
    Accounts (history unexpected ops).1 (history unexpected ops).2 := by
  have h := agrees_history unexpected ops
  generalize (history unexpected ops).1 = run, (history unexpected ops).2 = l at h ⊢
  have hcounts : (l.finished.map fun f => f.1.counts) = l.finished.map fun f => f.2.counts := by
    apply List.map_congr_left
    intro f hf
    exact (h.finished f hf).counts.symm
  constructor
  · rw [h.totals, hcounts]
  · exact h.told
  · exact h.fileCount
  · exact h.aborted
  · exact h.current
  · intro f hf
    rw [h.counts f hf, checks_counts]
  · intro f hf
    exact h.failures f hf
  · intro f hf
    exact (h.finished f hf).markers
  · intro f hf
    rw [(h.finished f hf).failures, (h.finished f hf).counts, FileRecord.failures,
      ← List.countP_eq_length_filter]
    rfl
  · exact h.totals
  · rcases h.opened_cases with ⟨hnone, hclosed⟩ | ⟨f, hopened, hopen, -, -⟩
    · refine iff_of_true ⟨run.tell (.done run.summary), run.summary, ?_⟩ hnone
      rw [finish, hclosed]
    · refine iff_of_false ?_ (by simp [hopened])
      rintro ⟨next, summary, hfinish⟩
      rw [finish, hopen] at hfinish
      exact absurd hfinish (by simp)
  · intro next summary hfinish
    have hsummary : run.summary = summary := by
      unfold finish at hfinish
      split at hfinish
      · exact absurd hfinish (by simp)
      · exact (Prod.mk.inj (Except.ok.inj hfinish)).2
    rw [← h.passed_iff, ← hsummary]
    exact RunSummary.exitStatus_eq_zero_iff

end ExpectedDiagnostics.Run
