import ExpectedDiagnostics.Proofs.Run.Accounting

/-!
# What a failing operation leaves

An operation fails if it is out of turn, or if it is to finish a file whose markers are not as many
as its checked annotations. Nothing is told of it. One that is out of turn leaves the run as it was.
Of a file that cannot be finished the lines that are left over have been counted by then, so they
count again when it is finished at last.

Main results:

* `failed_cases` — how an operation can fail, with what it leaves.
* `failed_leaves` — the same in any state that operations lead to, and what it comes to for the
  summary of a file.
-/

namespace ExpectedDiagnostics.Run

/-- An operation is out of turn: a file is open and none may be, or none is open and one has to
be. -/
def OutOfTurn (run : Run) : Operation → Prop
  | .beginFile _ | .finish => run.current ≠ none
  | .record _ | .finishFile _ | .abortFile _ => run.current = none

/-- The run has tried to finish its open file with an index, and could not, because the markers are
not as many as the annotations. -/
structure Miscounted (run : Run) (source : Source) (index : LineIndex) (f : Failure) (next : Run) :
    Prop where
  current : run.current = some source
  differ : (Marker.count source.text : Int) ≠ run.counts.checks
  failure : f = .problem (.countMismatch (Marker.count source.text) run.counts.checks source.path)
  /-- Nothing has changed except for the number of lines that are left over. -/
  counted : next = { run with counts := withLeftovers run.counts index }

variable {run next : Run} {op : Operation} {f : Failure}

/-- **How an operation can fail**, with what it leaves. -/
theorem failed_cases (h : run.perform op = (next, .failed f)) :
    (run.OutOfTurn op ∧ next = run) ∨
      ∃ source index, op = .finishFile index ∧ run.Miscounted source index f next := by
  cases hcurrent : run.current with
  | none =>
    cases op with
    | beginFile source =>
      rw [perform_beginFile hcurrent] at h
      exact nomatch congrArg Prod.snd h
    | record o =>
      rw [perform_record_closed hcurrent] at h
      exact .inl ⟨hcurrent, (congrArg Prod.fst h).symm⟩
    | finishFile index =>
      rw [perform_finishFile_closed hcurrent] at h
      exact .inl ⟨hcurrent, (congrArg Prod.fst h).symm⟩
    | abortFile problem =>
      rw [perform_abortFile_closed hcurrent] at h
      exact .inl ⟨hcurrent, (congrArg Prod.fst h).symm⟩
    | finish =>
      rw [perform_finish hcurrent] at h
      exact nomatch congrArg Prod.snd h
  | some source =>
    have hopen : run.current ≠ none := by simp [hcurrent]
    cases op with
    | beginFile other =>
      rw [perform_beginFile_open hcurrent] at h
      exact .inl ⟨hopen, (congrArg Prod.fst h).symm⟩
    | record o =>
      rw [perform_record hcurrent] at h
      exact nomatch congrArg Prod.snd h
    | finishFile index =>
      by_cases hcount : (Marker.count source.text : Int) = run.counts.checks
      · rw [perform_finishFile hcurrent hcount] at h
        exact nomatch congrArg Prod.snd h
      · rw [perform_finishFile_mismatch hcurrent hcount, Prod.mk.injEq, Answer.failed.injEq] at h
        exact .inr ⟨source, index, rfl, hcurrent, hcount, h.2.symm, h.1.symm⟩
    | abortFile problem =>
      rw [perform_abortFile hcurrent] at h
      exact nomatch congrArg Prod.snd h
    | finish =>
      rw [perform_finish_open hcurrent] at h
      exact .inl ⟨hopen, (congrArg Prod.fst h).symm⟩

/-- Nothing is told, and nothing is logged, of an operation that fails. -/
theorem events_of_failed (h : run.perform op = (next, .failed f)) :
    next.events = run.events ∧ next.log = run.log := by
  rcases failed_cases h with ⟨-, rfl⟩ | ⟨source, index, -, hcount⟩
  · exact ⟨rfl, rfl⟩
  · rw [hcount.counted]
    exact ⟨rfl, rfl⟩

/-- **What a failing operation leaves**, in any state that operations lead to, failed ones among
them. Nothing is told of it, and the run is as it was, unless a file could not be finished: then the
lines that are left over have been added to its counts. So the summary of a file counts the lines
that are left over of every index with which it was to be finished, and not only of the last one. -/
theorem failed_leaves (unexpected : Bool) (ops : List Operation) :
    (∀ op next f, (history unexpected ops).1.perform op = (next, .failed f) →
      next.events = (history unexpected ops).1.events ∧
        (next = (history unexpected ops).1 ∨
          ∃ source index, op = .finishFile index ∧
            (history unexpected ops).1.Miscounted source index f next)) ∧
    ∀ g ∈ (history unexpected ops).2.finished,
      g.2.counts.leftovers = (g.1.indexes.map fun index => (index.leftoverCount : Int)).sum := by
  constructor
  · intro op next f h
    refine ⟨(events_of_failed h).1, ?_⟩
    rcases failed_cases h with ⟨-, hsame⟩ | hcount
    · exact .inl hsame
    · exact .inr hcount
  · intro g hg
    -- the ledger has written down every index with which the file was to be finished
    rw [((agrees_history unexpected ops).finished g hg).counts]
    rfl

/-! A file with one marker that is to be finished before its annotation is checked, and again
afterwards. One line is left over. -/

def hastySource : Source :=
  ⟨.ofString "a.ts", "//%ts-expect-error:a"⟩

def hastyIndex : LineIndex :=
  .ofList [⟨none, 4, .text "b", 2, 0, "error"⟩]

/-- The file cannot be finished yet: nothing is told of the try, and the run is not as it was. -/
theorem failed_leaves_hasty : ∃ f next,
    (history true [.beginFile hastySource]).1.perform (.finishFile hastyIndex) =
        (next, .failed f) ∧
      next.events = [.begun "a.ts"] ∧
      (history true [.beginFile hastySource]).1.Miscounted hastySource hastyIndex f next := by
  refine ⟨_, _, rfl, ?_⟩
  obtain ⟨hevents, hleaves⟩ :=
    (failed_leaves true [.beginFile hastySource]).1 (.finishFile hastyIndex) _ _ rfl
  refine ⟨hevents, ?_⟩
  rcases hleaves with hsame | ⟨source, index, hop, hcount⟩
  · exact absurd (congrArg (·.counts.leftovers) hsame) (by decide)
  · obtain rfl := Operation.finishFile.inj hop
    obtain rfl := Option.some.inj hcount.current
    exact hcount

/-- Tried again once the annotation has been checked, the file is finished, and the line that is
left over is counted twice. -/
theorem retried_counts_twice :
    (∃ f, (history true [.beginFile hastySource]).1.perform (.finishFile hastyIndex) =
        ((history true [.beginFile hastySource, .finishFile hastyIndex]).1, .failed f)) ∧
      (history true [.beginFile hastySource]).1.counts = ⟨0, 0, 0⟩ ∧
      (history true [.beginFile hastySource, .finishFile hastyIndex]).1.counts = ⟨0, 0, 1⟩ ∧
      ∃ summary, ((history true [.beginFile hastySource, .finishFile hastyIndex,
          .record ⟨1, "a", "a (1)", true⟩]).1.perform (.finishFile hastyIndex)).2 = .file summary ∧
        hastyIndex.leftoverCount = 1 ∧ summary.counts = ⟨1, 0, 2⟩ :=
  ⟨⟨_, rfl⟩, rfl, rfl, _, rfl, rfl, rfl⟩

end ExpectedDiagnostics.Run
