import ExpectedDiagnostics.Proofs.Run.Operations

/-!
# What a report is told, block by block

A report is told of a file in one block: that it is begun, the outcomes recorded for it, and that it
is finished or given up. The end of a run is a block of its own. Beside a run minutes are kept,
which only write down what was asked for and answered. Whatever operations are asked for, the report
has been told the blocks of the minutes, and of the open file what has been recorded so far.

Main results:

* `Told.perform` — each operation, be it one that fails, tells what the minutes have of it.
* `told_minuted` — so the report has been told the minutes after any sequence of operations.
* `Minutes.exists_blocks` — which is the beginning of some whole blocks.
-/

namespace ExpectedDiagnostics

/-- What a report is told in one go: a file with the outcomes recorded for it and its end, or the
end of a run. -/
inductive Block
  | finished (path : String) (outcomes : List Outcome) (summary : FileSummary)
  | aborted (path : String) (outcomes : List Outcome) (problem : Problem)
  | done (summary : RunSummary)

/-- What is told of a file before its end. -/
def Block.opening (path : String) (outcomes : List Outcome) : List Event :=
  .begun path :: outcomes.map .checked

/-- What is told of a whole block. -/
def Block.events : Block → List Event
  | finished path outcomes summary => opening path outcomes ++ [.finished summary]
  | aborted path outcomes problem => opening path outcomes ++ [.aborted path problem]
  | done summary => [.done summary]

/-- A block ends with the file that it has begun with. -/
def Block.OfOneFile : Block → Prop
  | finished path _ summary => summary.path = path
  | aborted .. | done _ => True

namespace Run

/-- What was asked for in a run and done, in order: the blocks that are complete, and the open file
with the outcomes recorded for it. -/
structure Minutes where
  blocks : List Block
  opened : Option (String × List Outcome)

namespace Minutes

def empty : Minutes := ⟨[], none⟩

/-- Writes down an operation and its answer. A failure leaves no trace. -/
def enter (m : Minutes) : Operation → Answer → Minutes
  | .beginFile source, .nothing => { m with opened := some (source.path.toString, []) }
  | .record o, .nothing => { m with opened := m.opened.map fun f => (f.1, f.2 ++ [o]) }
  | .finishFile _, .file summary =>
    ⟨m.blocks ++ m.opened.toList.map fun f => .finished f.1 f.2 summary, none⟩
  | .abortFile problem, .nothing =>
    ⟨m.blocks ++ m.opened.toList.map fun f => .aborted f.1 f.2 problem, none⟩
  | .finish, .whole summary => { m with blocks := m.blocks ++ [.done summary] }
  | _, _ => m

/-- The events that the minutes come to. -/
def events (m : Minutes) : List Event :=
  m.blocks.flatMap Block.events ++ m.opened.toList.flatMap fun f => Block.opening f.1 f.2

/-- One block more comes after the others, where no file is open. -/
theorem events_append (blocks : List Block) (b : Block) :
    events ⟨blocks ++ [b], none⟩ = events ⟨blocks, none⟩ ++ b.events := by
  unfold events
  simp

/-- An open file comes after all blocks. -/
theorem events_opened (blocks : List Block) (path : String) (outcomes : List Outcome) :
    events ⟨blocks, some (path, outcomes)⟩ =
      events ⟨blocks, none⟩ ++ Block.opening path outcomes := by
  unfold events
  simp

theorem opening_append (path : String) (outcomes : List Outcome) (o : Outcome) :
    Block.opening path (outcomes ++ [o]) = Block.opening path outcomes ++ [.checked o] := by
  unfold Block.opening
  simp

/-- The minutes are the beginning of whole blocks, each about one file: the open file only lacks its
end. -/
theorem exists_blocks {m : Minutes} (h : ∀ b ∈ m.blocks, b.OfOneFile) :
    ∃ blocks : List Block, (∀ b ∈ blocks, b.OfOneFile) ∧
      m.events <+: blocks.flatMap Block.events := by
  obtain ⟨blocks, opened⟩ := m
  cases opened with
  | none => exact ⟨blocks, h, by simp [events]⟩
  | some file =>
    obtain ⟨path, outcomes⟩ := file
    -- the file could be given up next, for whatever reason
    let last : Block := .aborted path outcomes (.malformedComment [])
    refine ⟨blocks ++ [last], ?_, ?_⟩
    · intro b hb
      rcases List.mem_append.mp hb with hb | hb
      · exact h b hb
      · rw [List.mem_singleton.mp hb]
        trivial
    · refine ⟨[.aborted path (.malformedComment [])], ?_⟩
      rw [events_opened]
      simp [events, last, Block.events]

end Minutes

/-- One operation, for the run and for the minutes. -/
def minute (state : Run × Minutes) (op : Operation) : Run × Minutes :=
  let (next, answer) := state.1.perform op
  (next, state.2.enter op answer)

/-- The run and the minutes after a sequence of operations. -/
def minuted (unexpected : Bool) (ops : List Operation) : Run × Minutes :=
  ops.foldl minute (start unexpected, .empty)

/-- The report of a run has been told the minutes, whose blocks are each about one file. -/
structure Told (run : Run) (m : Minutes) : Prop where
  current : run.current.map (·.path.toString) = m.opened.map (·.1)
  events : run.events = m.events
  oneFile : ∀ b ∈ m.blocks, b.OfOneFile

variable {run : Run} {m : Minutes}

theorem told_start (unexpected : Bool) : Told (start unexpected) .empty where
  current := rfl
  events := rfl
  oneFile _ hb := absurd hb List.not_mem_nil

namespace Told

/-- The minutes have an open file exactly if the run has, and it is the same. -/
theorem opened_cases (h : Told run m) :
    (run.current = none ∧ m = ⟨m.blocks, none⟩) ∨
      ∃ source outcomes, run.current = some source ∧
        m = ⟨m.blocks, some (source.path.toString, outcomes)⟩ := by
  have hcurrent := h.current
  obtain ⟨blocks, opened⟩ := m
  cases hrun : run.current with
  | none =>
    rw [hrun, Option.map_none, eq_comm, Option.map_eq_none_iff] at hcurrent
    obtain rfl : opened = none := hcurrent
    exact .inl ⟨rfl, rfl⟩
  | some source =>
    rw [hrun, Option.map_some, eq_comm, Option.map_eq_some_iff] at hcurrent
    obtain ⟨⟨path, outcomes⟩, rfl, rfl⟩ := hcurrent
    exact .inr ⟨source, outcomes, rfl, rfl⟩

/-- A block more is told in the end of it, after what has been told of its file. -/
theorem append (h : Told run m) {path : String} {outcomes : List Outcome}
    (hm : m = ⟨m.blocks, some (path, outcomes)⟩) {e : Event} {b : Block}
    (hb : b.events = Block.opening path outcomes ++ [e]) (hone : b.OfOneFile) {next : Run}
    (hnone : next.current = none) (hnext : next.events = run.events ++ [e]) :
    Told next ⟨m.blocks ++ [b], none⟩ where
  current := by rw [hnone]; rfl
  events := by
    rw [hnext, h.events, hm, Minutes.events_opened, Minutes.events_append, hb, List.append_assoc]
  oneFile c hc := by
    rcases List.mem_append.mp hc with hc | hc
    · exact h.oneFile c hc
    · rw [List.mem_singleton.mp hc]
      exact hone

/-- **Every operation tells what the minutes have of it**, and one that fails tells nothing. -/
theorem perform (h : Told run m) (op : Operation) :
    Told (run.perform op).1 (m.enter op (run.perform op).2) := by
  rcases h.opened_cases with ⟨hclosed, hm⟩ | ⟨source, outcomes, hopen, hm⟩
  · cases op with
    | beginFile source =>
      rw [perform_beginFile hclosed]
      refine ⟨rfl, ?_, h.oneFile⟩
      show run.events ++ [_] = Minutes.events ⟨m.blocks, some (source.path.toString, [])⟩
      rw [h.events, hm, Minutes.events_opened]
      rfl
    | record o =>
      rw [perform_record_closed hclosed]
      exact h
    | finishFile index =>
      rw [perform_finishFile_closed hclosed]
      exact h
    | abortFile problem =>
      rw [perform_abortFile_closed hclosed]
      exact h
    | finish =>
      rw [perform_finish hclosed]
      refine ⟨h.current, ?_, ?_⟩
      · show run.events ++ [_] = Minutes.events ⟨m.blocks ++ [.done run.summary], m.opened⟩
        rw [h.events, hm, Minutes.events_append]
        rfl
      · intro b hb
        rcases List.mem_append.mp hb with hb | hb
        · exact h.oneFile b hb
        · rw [List.mem_singleton.mp hb]
          trivial
  · cases op with
    | beginFile other =>
      rw [perform_beginFile_open hopen]
      exact h
    | record o =>
      rw [perform_record hopen, hm]
      refine ⟨congrArg (Option.map (·.path.toString)) hopen, ?_, h.oneFile⟩
      show run.events ++ [_] =
        Minutes.events ⟨m.blocks, some (source.path.toString, outcomes ++ [o])⟩
      rw [h.events, hm, Minutes.events_opened, Minutes.events_opened, Minutes.opening_append,
        List.append_assoc]
    | finishFile index =>
      by_cases hcount : (Marker.count source.text : Int) = run.counts.checks
      · rw [perform_finishFile hopen hcount, hm]
        have hone : (Block.finished source.path.toString outcomes
            (run.fileSummary source (withLeftovers run.counts index) index)).OfOneFile := rfl
        exact h.append hm rfl hone rfl rfl
      · rw [perform_finishFile_mismatch hopen hcount]
        exact ⟨h.current, h.events, h.oneFile⟩
    | abortFile problem =>
      rw [perform_abortFile hopen, hm]
      have hone : (Block.aborted source.path.toString outcomes problem).OfOneFile := trivial
      exact h.append hm rfl hone rfl rfl
    | finish =>
      rw [perform_finish_open hopen]
      exact h

end Told

/-- What has been told stays in the minutes through every sequence of operations. -/
theorem Told.foldl {state : Run × Minutes} (h : Told state.1 state.2) (ops : List Operation) :
    Told (ops.foldl minute state).1 (ops.foldl minute state).2 := by
  induction ops generalizing state with
  | nil => exact h
  | cons op ops ih => exact ih (h.perform op)

/-- **The report has been told the minutes** after any sequence of operations. -/
theorem told_minuted (unexpected : Bool) (ops : List Operation) :
    Told (minuted unexpected ops).1 (minuted unexpected ops).2 := by
  have hstart : Told (start unexpected, Minutes.empty).1 (start unexpected, .empty).2 :=
    told_start unexpected
  exact hstart.foldl ops

end Run

end ExpectedDiagnostics
