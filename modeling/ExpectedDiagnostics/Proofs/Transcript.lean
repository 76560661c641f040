/-!
# One operation after the other

Something that is asked for one operation after the other answers each of them, and is in another
state after it. `perform` stands for what one operation does: the answer, and the next state.

Main results:

* `afterAll_append` / `transcript_append` — operations can be cut anywhere, and the later ones start
  from the state that the earlier ones leave.
* `getElem?_transcript` — each operation is answered in the state that those before it leave.
-/

namespace ExpectedDiagnostics

variable {State Op Answer : Type} (perform : State → Op → Answer × State)

/-- The state after operations. -/
def afterAll (s : State) : List Op → State
  | [] => s
  | op :: ops => afterAll (perform s op).2 ops

/-- Operations with their answers. -/
def transcript (s : State) : List Op → List (Op × Answer)
  | [] => []
  | op :: ops => (op, (perform s op).1) :: transcript (perform s op).2 ops

variable (s : State) (ops more : List Op)

theorem afterAll_append :
    afterAll perform s (ops ++ more) = afterAll perform (afterAll perform s ops) more := by
  induction ops generalizing s with
  | nil => rfl
  | cons op ops ih => exact ih (perform s op).2

theorem transcript_append :
    transcript perform s (ops ++ more) =
      transcript perform s ops ++ transcript perform (afterAll perform s ops) more := by
  induction ops generalizing s with
  | nil => rfl
  | cons op ops ih => exact congrArg (_ :: ·) (ih (perform s op).2)

theorem take_transcript (i : Nat) :
    (transcript perform s ops).take i = transcript perform s (ops.take i) := by
  induction ops generalizing s i with
  | nil => rw [List.take_nil, transcript, List.take_nil]
  | cons op ops ih =>
    cases i with
    | zero => rfl
    | succ i => exact congrArg (_ :: ·) (ih (perform s op).2 i)

/-- Each operation is answered in the state that those before it leave. -/
theorem getElem?_transcript {i : Nat} {op : Op} (h : ops[i]? = some op) :
    (transcript perform s ops)[i]? =
      some (op, (perform (afterAll perform s (ops.take i)) op).1) := by
  induction ops generalizing s i with
  | nil => exact absurd h (by simp)
  | cons first ops ih =>
    cases i with
    | zero =>
      obtain rfl := Option.some.inj h
      rfl
    | succ i => exact ih (perform s first).2 h

end ExpectedDiagnostics
