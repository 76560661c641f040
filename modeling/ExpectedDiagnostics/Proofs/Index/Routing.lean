import ExpectedDiagnostics.Proofs.Index.Requests

/-!
# Files are kept apart

A program's index acts as one history for each line of each file, whatever the spellings of the
paths by which it is used. What has been added to a line is what the takes of this line have
returned so far and what is still on it (`Accounts`), and this settles what the next take returns.
Operations on one file can be left out without any effect on those on another one (`SameAt`).

Main results:

* `accounts_perform` / `accounts_after` — the accounts are kept by one operation and by all of them.
* `Accounts.answers` / `Accounts.perform_idle` — what the accounts say about the next operation.
* `SameAt.performAt` / `SameAt.filter` — operations that reach other places make no difference.
* `routing` — the whole of it, for an index of diagnostics.
-/

namespace ExpectedDiagnostics.ProgramIndex

/-! ## What operations come to -/

namespace Operation

/-- The operation reaches a place. -/
def isAt (directory place : Location) (op : Operation) : Bool :=
  op.place? directory == some place

/-- The operation is an addition. -/
def isAddition : Operation → Bool
  | .add _ => true
  | .take _ _ => false
  | .ask _ => false

/-- What the operation adds to a line. -/
def addsTo (line : Int) : Operation → List Diagnostic
  | .add d => if d.line = line then [d] else []
  | .take _ _ => []
  | .ask _ => []

end Operation

/-- What an operation takes from a line, told from its answer. -/
def takes (line : Int) : Operation × Answer → List Diagnostic
  | (.take _ other, .taken ds) => if other = line then ds else []
  | _ => []

/-- What operations add to a line of the file at a place. -/
def addedTo (directory place : Location) (line : Int) (ops : List Operation) : List Diagnostic :=
  (ops.filter (·.isAt directory place)).flatMap (·.addsTo line)

/-- What operations take from a line of the file at a place. -/
def takenFrom (directory place : Location) (line : Int) (events : List (Operation × Answer)) :
    List Diagnostic :=
  (events.filter (·.1.isAt directory place)).flatMap (takes line)

/-- Some operation adds something to the file at a place. -/
def named (directory place : Location) (ops : List Operation) : Bool :=
  ops.any fun op => op.isAt directory place && op.isAddition

/-- What an operation may answer after others, told without the index. -/
inductive Answers (directory : Location) (past : List Operation)
    (events : List (Operation × Answer)) : Operation → Answer → Prop
  /-- A diagnostic without a file is not added. -/
  | noFile {d} (hfile : d.file = none) :
      Answers directory past events (.add d) (.refused .noFile)
  /-- A path with the null character leads nowhere. -/
  | null {op path} (hpath : op.path? = some path) (hnull : '\x00' ∈ path.toList) :
      Answers directory past events op (.refused (.unresolved .nullCharacter))
  /-- A diagnostic is added to its file. -/
  | added {d place} (hplace : (Operation.add d).place? directory = some place) :
      Answers directory past events (.add d) .added
  /-- A take returns what has been added to the line and not been returned before. -/
  | taken {path line place ds} (hplace : (Operation.take path line).place? directory = some place)
      (haccounts :
        addedTo directory place line past = takenFrom directory place line events ++ ds) :
      Answers directory past events (.take path line) (.taken ds)
  /-- A file is known if something has been added to it. -/
  | told {path place} (hplace : (Operation.ask path).place? directory = some place) :
      Answers directory past events (.ask path) (.told (named directory place past))

/-- An operation that changes nothing after others. -/
inductive Idle (directory : Location) (past : List Operation) : Operation → Prop
  /-- It is refused. -/
  | refused {op} (hplace : op.place? directory = none) : Idle directory past op
  /-- It only asks. -/
  | ask (path) : Idle directory past (.ask path)
  /-- It takes from a file that nothing has been added to. -/
  | unknown {path line place} (hplace : (Operation.take path line).place? directory = some place)
      (hnamed : named directory place past = false) : Idle directory past (.take path line)

variable {directory place : Location} {ix : ProgramIndex} {ops past : List Operation}
  {events : List (Operation × Answer)} {op : Operation} {answer : Answer}

theorem addedTo_concat (line : Int) :
    addedTo directory place line (past ++ [op]) =
      addedTo directory place line past ++
        if op.isAt directory place then op.addsTo line else [] := by
  unfold addedTo
  rw [List.filter_append, List.flatMap_append, List.filter_cons, List.filter_nil]
  split
  · rw [List.flatMap_singleton]
  · rfl

theorem takenFrom_concat (line : Int) :
    takenFrom directory place line (events ++ [(op, answer)]) =
      takenFrom directory place line events ++
        if op.isAt directory place then takes line (op, answer) else [] := by
  unfold takenFrom
  rw [List.filter_append, List.flatMap_append, List.filter_cons, List.filter_nil]
  split
  · rw [List.flatMap_singleton]
  · rfl

theorem named_concat :
    named directory place (past ++ [op]) =
      (named directory place past || (op.isAt directory place && op.isAddition)) := by
  unfold named
  rw [List.any_append, List.any_cons, List.any_nil, Bool.or_false]

/-! ## One operation at a place -/

section

variable (ix : ProgramIndex) (place other : Location) (op : Operation)

/-- An operation does not touch the files at other places. -/
theorem forFile_performAt (h : other ≠ place) :
    (ix.performAt place op).2.forFile other = ix.forFile other := by
  cases op with
  | add d =>
    show (ix.addAt place d).forFile other = ix.forFile other
    rw [forFile_addAt, if_neg h]
  | take path line =>
    show (ix.take place line).2.forFile other = ix.forFile other
    rw [forFile_take, if_neg h]
  | ask path => rfl

/-- An addition makes the file at its place known. -/
theorem contains_performAt :
    (ix.performAt place op).2.contains other =
      (ix.contains other || (place == other && op.isAddition)) := by
  cases op with
  | add d =>
    show (ix.addAt place d).contains other = (ix.contains other || (place == other && true))
    rw [contains_addAt, Bool.and_true, Bool.or_comm]
  | take path line =>
    show (ix.take place line).2.contains other = (ix.contains other || (place == other && false))
    rw [contains_take, Bool.and_false, Bool.or_false]
  | ask path =>
    show ix.contains other = (ix.contains other || (place == other && false))
    rw [Bool.and_false, Bool.or_false]

/-- What is on a line of the file, with what the operation adds to it, is taken by the operation or
stays on it. -/
theorem on_performAt (line : Int) :
    (ix.forFile place).on line ++ op.addsTo line =
      takes line (op, (ix.performAt place op).1) ++
        ((ix.performAt place op).2.forFile place).on line := by
  cases op with
  | add d =>
    show (ix.forFile place).on line ++ (if d.line = line then [d] else []) =
      ((ix.addAt place d).forFile place).on line
    rw [forFile_addAt, if_pos rfl, LineIndex.on_add]
    split
    · rfl
    · exact List.append_nil _
  | take path own =>
    show (ix.forFile place).on line ++ [] =
      (if own = line then (ix.forFile place).on own else []) ++
        ((ix.take place own).2.forFile place).on line
    rw [forFile_take, if_pos rfl, LineIndex.on_drop, List.append_nil]
    by_cases hline : own = line
    · rw [if_pos hline, if_pos hline.symm, List.append_nil, hline]
    · rw [if_neg hline, if_neg fun heq => hline heq.symm, List.nil_append]
  | ask path => exact List.append_nil _

end

theorem isAt_of_none (h : op.place? directory = none) : op.isAt directory place = false := by
  unfold Operation.isAt
  rw [h]
  rfl

theorem isAt_of_some {own : Location} (h : op.place? directory = some own) :
    op.isAt directory place = (own == place) := by
  unfold Operation.isAt
  rw [h]
  rfl

/-! ## The accounts -/

/-- What has been added to any line of any file is what has been taken from it and what is on it,
and a file is known if something has been added to it. -/
structure Accounts (directory : Location) (past : List Operation)
    (events : List (Operation × Answer)) (ix : ProgramIndex) : Prop where
  lines : ∀ place line, addedTo directory place line past =
    takenFrom directory place line events ++ (ix.forFile place).on line
  known : ∀ place, ix.contains place = named directory place past

/-- **One operation keeps the accounts.** -/
theorem accounts_perform (hdirectory : NullFree directory.names)
    (h : Accounts directory past events ix) (op : Operation) :
    Accounts directory (past ++ [op]) (events ++ [(op, (ix.perform directory op).1)])
      (ix.perform directory op).2 := by
  cases hplace : op.place? directory with
  | none =>
    -- it is refused, and is at no place
    obtain ⟨f, hf⟩ := perform_of_place?_none ix hplace
    rw [hf]
    constructor
    · intro place line
      rw [addedTo_concat, takenFrom_concat, isAt_of_none hplace, h.lines place line]
      simp
    · intro place
      rw [named_concat, isAt_of_none hplace, h.known place]
      simp
  | some own =>
    rw [perform_of_place? ix hdirectory hplace]
    constructor
    · intro place line
      rw [addedTo_concat, takenFrom_concat, isAt_of_some hplace, h.lines place line]
      -- at its own place it adds or takes, and at any other one it does neither
      by_cases hown : own = place
      · rw [if_pos (beq_iff_eq.mpr hown), if_pos (beq_iff_eq.mpr hown), List.append_assoc,
          List.append_assoc, hown, on_performAt]
      · rw [if_neg (mt beq_iff_eq.mp hown), if_neg (mt beq_iff_eq.mp hown), List.append_nil,
          List.append_nil, forFile_performAt ix own place op fun heq => hown heq.symm]
    · intro place
      rw [contains_performAt, named_concat, isAt_of_some hplace, h.known place]

/-- **All operations keep the accounts.** -/
theorem accounts_after (hdirectory : NullFree directory.names)
    (h : Accounts directory past events ix) (ops : List Operation) :
    Accounts directory (past ++ ops) (events ++ transcript (perform directory) ix ops)
      (afterAll (perform directory) ix ops) := by
  -- the accounts are about what came before, so the last operation is the next one
  induction ops using List.reverseRecOn with
  | nil =>
    rw [List.append_nil]
    show Accounts directory past (events ++ []) ix
    rwa [List.append_nil]
  | append_singleton ops op ih =>
    rw [afterAll_append, transcript_append, ← List.append_assoc, ← List.append_assoc]
    exact accounts_perform hdirectory ih op

/-- Accounts settle what is answered. -/
theorem Accounts.answers (hdirectory : NullFree directory.names)
    (h : Accounts directory past events ix) (op : Operation) :
    Answers directory past events op (ix.perform directory op).1 := by
  cases hplace : op.place? directory with
  | none =>
    -- only an addition may be without a path
    rcases Operation.place?_eq_none.mp hplace with hpath | ⟨path, hpath, hnull⟩
    · cases op with
      | add d =>
        rw [perform_noFile ix hpath]
        exact .noFile hpath
      | take path line => exact absurd hpath (by simp [Operation.path?])
      | ask path => exact absurd hpath (by simp [Operation.path?])
    · rw [perform_null ix hpath hnull]
      exact .null hpath hnull
  | some place =>
    rw [perform_of_place? ix hdirectory hplace]
    cases op with
    | add d => exact .added hplace
    | take path line => exact .taken hplace (h.lines place line)
    | ask path =>
      show Answers directory past events (.ask path) (.told (ix.contains place))
      rw [h.known place]
      exact .told hplace

/-- **Idle operations** change nothing. -/
theorem Accounts.perform_idle (hdirectory : NullFree directory.names)
    (h : Accounts directory past events ix) (hidle : Idle directory past op) :
    (ix.perform directory op).2 = ix := by
  cases hidle with
  | refused hplace =>
    obtain ⟨f, hf⟩ := perform_of_place?_none ix hplace
    rw [hf]
  | ask path =>
    cases hplace : (Operation.ask path).place? directory with
    | none =>
      obtain ⟨f, hf⟩ := perform_of_place?_none ix hplace
      rw [hf]
    | some place =>
      rw [perform_of_place? ix hdirectory hplace]
      rfl
  | @unknown path line place hplace hnamed =>
    rw [perform_of_place? ix hdirectory hplace]
    exact replace_eq_self ((h.known place).trans hnamed) _

/-! ## Other files -/

/-- Two indexes cannot be told apart at a place. -/
structure SameAt (place : Location) (a b : ProgramIndex) : Prop where
  lines : a.forFile place = b.forFile place
  known : a.contains place = b.contains place

theorem SameAt.refl (place : Location) (ix : ProgramIndex) : SameAt place ix ix := ⟨rfl, rfl⟩

variable {other : ProgramIndex}

/-- An operation at the place answers the same in both, and leaves them the same there. -/
theorem SameAt.performAt (h : SameAt place ix other) (op : Operation) :
    (ix.performAt place op).1 = (other.performAt place op).1 ∧
      SameAt place (ix.performAt place op).2 (other.performAt place op).2 := by
  have hknown : (ix.performAt place op).2.contains place =
      (other.performAt place op).2.contains place := by
    rw [contains_performAt, contains_performAt, h.known]
  cases op with
  | add d =>
    refine ⟨rfl, ?_, hknown⟩
    show (ix.addAt place d).forFile place = (other.addAt place d).forFile place
    rw [forFile_addAt, forFile_addAt, if_pos rfl, if_pos rfl, h.lines]
  | take path line =>
    refine ⟨?_, ?_, hknown⟩
    · show Answer.taken ((ix.forFile place).on line) = .taken ((other.forFile place).on line)
      rw [h.lines]
    · show (ix.take place line).2.forFile place = (other.take place line).2.forFile place
      rw [forFile_take, forFile_take, if_pos rfl, if_pos rfl, h.lines]
  | ask path => exact ⟨congrArg Answer.told h.known, h⟩

/-- Any other operation leaves the index the same there. -/
theorem SameAt.perform_elsewhere (hdirectory : NullFree directory.names)
    (h : SameAt place ix other) (hat : op.isAt directory place = false) :
    SameAt place (ix.perform directory op).2 other := by
  cases hplace : op.place? directory with
  | none =>
    obtain ⟨f, hf⟩ := perform_of_place?_none ix hplace
    rw [hf]
    exact h
  | some own =>
    rw [isAt_of_some hplace] at hat
    have hown : place ≠ own := fun heq => beq_eq_false_iff_ne.mp hat heq.symm
    rw [perform_of_place? ix hdirectory hplace]
    constructor
    · rw [forFile_performAt ix own place op hown, h.lines]
    · rw [contains_performAt, hat, Bool.false_and, Bool.or_false, h.known]

/-- **Operations that reach other places** make no difference: without them, those that reach the
place are answered the same, and leave the index the same there. -/
theorem SameAt.filter (hdirectory : NullFree directory.names) (h : SameAt place ix other)
    (ops : List Operation) :
    ((transcript (perform directory) ix ops).filter (·.1.isAt directory place) =
        transcript (perform directory) other (ops.filter (·.isAt directory place))) ∧
      SameAt place (afterAll (perform directory) ix ops)
        (afterAll (perform directory) other (ops.filter (·.isAt directory place))) := by
  -- an operation changes one index or both, so both vary in the induction
  induction ops generalizing ix other with
  | nil => exact ⟨rfl, h⟩
  | cons op ops ih =>
    rw [transcript, List.filter_cons, List.filter_cons]
    dsimp only
    cases hat : op.isAt directory place with
    | false => exact ih (h.perform_elsewhere hdirectory hat)
    | true =>
      have hplace : op.place? directory = some place := beq_iff_eq.mp hat
      obtain ⟨hanswer, hsame⟩ := h.performAt op
      rw [← perform_of_place? ix hdirectory hplace, ← perform_of_place? other hdirectory hplace]
        at hanswer hsame
      obtain ⟨htranscript, hafter⟩ := ih hsame
      rw [if_pos rfl, if_pos rfl, transcript, htranscript, hanswer]
      exact ⟨rfl, hafter⟩

/-! ## An index of diagnostics -/

/-- The diagnostics about a file are those whose additions reach it. -/
theorem map_add_about {ds : List Diagnostic} (h : NullFreeFiles ds) :
    (ds.map Operation.add).filter (·.isAt directory place) =
      (Diagnostic.about directory place ds).map .add := by
  unfold Diagnostic.about
  rw [List.filter_map]
  congr 1
  apply List.filter_congr
  intro d hd
  show ((Operation.add d).place? directory == some place) = (d.place? directory == some place)
  congr 1
  unfold Operation.place? Diagnostic.place?
  show d.file.bind _ = d.file.map _
  cases hfile : d.file with
  | none => rfl
  | some file => exact if_neg (h d hd file hfile)

/-- Additions take nothing. -/
theorem takenFrom_additions (ds : List Diagnostic) (line : Int) :
    takenFrom directory place line (transcript (perform directory) ix (ds.map .add)) = [] := by
  induction ds generalizing ix with
  | nil => rfl
  | cons d ds ih =>
    unfold takenFrom at ih ⊢
    rw [List.map_cons, transcript, List.filter_cons]
    split
    -- whatever an addition is answered, it is no take
    · rw [List.flatMap_cons, ih]
      rfl
    · exact ih

theorem accounts_additions (hdirectory : NullFree directory.names) (ds : List Diagnostic) :
    Accounts directory (ds.map .add) [] (afterAll (perform directory) empty (ds.map .add)) := by
  have hempty : Accounts directory [] [] empty := ⟨fun _ _ => rfl, fun _ => rfl⟩
  have hall := accounts_after hdirectory hempty (ds.map .add)
  refine ⟨fun place line => ?_, hall.known⟩
  have hline := hall.lines place line
  rw [List.nil_append, List.nil_append, takenFrom_additions] at hline
  exact hline

/-- **An index of diagnostics keeps files apart.** It can be built if no file of the diagnostics
holds the null character, and those without a file have no effect. From then on each operation
answers what the operations before it settle, whatever the spelling of its path; idle ones change
nothing; and what is answered for one file is the same without the diagnostics and the operations
for all other ones. -/
theorem routing {initial : List Diagnostic} (hdirectory : NullFree directory.names)
    (hinitial : NullFreeFiles initial) (ops : List Operation) :
    ∃ start, ofList directory initial = .ok start ∧
      ofList directory (initial.filter fun d => d.file.isSome) = .ok start ∧
      (∀ i op, ops[i]? = some op → ∃ answer,
        (transcript (perform directory) start ops)[i]? = some (op, answer) ∧
          Answers directory (initial.map .add ++ ops.take i)
            ((transcript (perform directory) start ops).take i) op answer) ∧
      (∀ i op, ops[i]? = some op → Idle directory (initial.map .add ++ ops.take i) op →
        afterAll (perform directory) start (ops.take (i + 1)) =
          afterAll (perform directory) start (ops.take i)) ∧
      ∀ place, ∃ own, ofList directory (Diagnostic.about directory place initial) = .ok own ∧
        (transcript (perform directory) start ops).filter (·.1.isAt directory place) =
          transcript (perform directory) own (ops.filter (·.isAt directory place)) := by
  -- the index at the start is the one to which the diagnostics have been added
  obtain ⟨start, hafter⟩ : ∃ start, start =
    afterAll (perform directory) empty (initial.map .add) := ⟨_, rfl⟩
  have hstart : ofList directory initial = .ok start := by
    rw [hafter]
    exact ofList_eq_after hdirectory hinitial
  have haccounts : ∀ i, Accounts directory (initial.map .add ++ ops.take i)
      ((transcript (perform directory) start ops).take i)
      (afterAll (perform directory) start (ops.take i)) := by
    intro i
    rw [take_transcript, hafter]
    exact accounts_after hdirectory (accounts_additions hdirectory initial) (ops.take i)
  refine ⟨start, hstart, ?_, ?_, ?_, ?_⟩
  · exact (addAll_filter_file empty directory initial).trans hstart
  · intro i op hop
    exact ⟨_, getElem?_transcript _ start ops hop, (haccounts i).answers hdirectory op⟩
  · intro i op hop hidle
    rw [List.take_add_one, hop, afterAll_append]
    exact (haccounts i).perform_idle hdirectory hidle
  · intro place
    -- first the additions for other files are left out, then the operations
    have hsame := ((SameAt.refl place empty).filter hdirectory (initial.map .add)).2
    rw [map_add_about hinitial, ← hafter] at hsame
    refine ⟨_, ofList_eq_after hdirectory (hinitial.filter _), ?_⟩
    exact (hsame.filter hdirectory ops).1

/-! ## A file with several spellings -/

/-- A report on the second line of a file. -/
def reportOn (file : String) (code : Int) : Diagnostic :=
  ⟨some file, 1, .text "x", code, 0, "error"⟩

/-- What has been added by one spelling is taken by another one. -/
theorem routing_respelled :
    ∃ start, ofList ⟨["work"]⟩ [reportOn "a.ts" 1, reportOn "/work//b.ts" 2] = .ok start ∧
      (transcript (perform ⟨["work"]⟩) start [.take "../work/./b.ts" 1])[0]? =
        some (.take "../work/./b.ts" 1, .taken [reportOn "/work//b.ts" 2]) := by
  have hdirectory : NullFree ["work"] := by unfold NullFree; decide
  have hinitial : NullFreeFiles [reportOn "a.ts" 1, reportOn "/work//b.ts" 2] := by
    unfold NullFreeFiles
    decide
  obtain ⟨start, hstart, -, hanswers, -, -⟩ :=
    routing hdirectory hinitial [.take "../work/./b.ts" 1]
  refine ⟨start, hstart, ?_⟩
  obtain ⟨answer, hanswer, hsettled⟩ := hanswers 0 _ rfl
  rw [hanswer]
  cases hsettled with
  | null hpath hnull =>
    obtain rfl := Option.some.inj hpath
    exact absurd hnull (by decide)
  | @taken _ _ place ds hplace haccounts =>
    have hb : (Operation.take "../work/./b.ts" 1).place? ⟨["work"]⟩ = some ⟨["work", "b.ts"]⟩ := by
      decide
    obtain rfl := Option.some.inj (hplace.symm.trans hb)
    have hds : [reportOn "/work//b.ts" 2] = ds := haccounts
    rw [hds]

/-- There is no index if a file cannot be resolved. -/
theorem ofList_null :
    ¬ ∃ start, ofList ⟨["work"]⟩ [reportOn "a.ts" 1, reportOn "a\x00b" 2] = .ok start := by
  have herror : ofList ⟨["work"]⟩ [reportOn "a.ts" 1, reportOn "a\x00b" 2] =
      .error .nullCharacter := rfl
  rintro ⟨start, hstart⟩
  rw [herror] at hstart
  exact absurd hstart (by simp)

end ExpectedDiagnostics.ProgramIndex
