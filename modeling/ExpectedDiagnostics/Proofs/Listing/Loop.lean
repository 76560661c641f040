import ExpectedDiagnostics.Listing.Reader
import ExpectedDiagnostics.Proofs.Except

/-!
# Reading line by line

A listing can be read one line after the other, without looking ahead. What is kept is the
diagnostic whose lines are being read, and of the tree that they make the line that was read last
and those that it is inside of (`Pending`). A line that explains something is put below the first of
these that is less far to the right, and the ones that are passed over are done with. A header, or
any other line, ends the diagnostic.

Reading like this comes to the same as reading by blocks: `forest` makes of the lines that follow
what is put below the open lines one by one.

Main results:

* `Pending.buildWith_push` — what becomes of the open lines as one more line comes in.
* `Loop.runFrom_eq` — reading on from any state.
* `diagnosticsOf_eq_loop` — reading line by line gives what reading by blocks gives.
-/

namespace ExpectedDiagnostics.Listing

/-! ## Open lines -/

/-- A line that may get more lines below it, with what is below it so far and done with. -/
structure Builder where
  text : List Char
  depth : Nat
  children : List Message

namespace Builder

/-- The message of a line and what is below it. -/
def message (b : Builder) : Message :=
  .chain (.ofList b.text) b.children

/-- Puts messages below a line. -/
def add (b : Builder) (ms : List Message) : Builder :=
  { b with children := b.children ++ ms }

@[simp]
theorem add_nil (b : Builder) : b.add [] = b := by
  unfold add
  rw [List.append_nil]

@[simp]
theorem add_add (b : Builder) (ms ns : List Message) : (b.add ms).add ns = b.add (ms ++ ns) := by
  unfold add
  rw [List.append_assoc]

end Builder

/-- Leaves lines that are not less far to the right than a depth, the innermost first. The outermost
one is never left. -/
def popTo (depth : Nat) (b : Builder) : List Builder → Builder × List Builder
  | [] => (b, [])
  | outer :: chain =>
    if depth ≤ b.depth then popTo depth (outer.add [b.message]) chain else (b, outer :: chain)

/-- Leaves all lines but the outermost one. -/
def close (b : Builder) : List Builder → Builder
  | [] => b
  | outer :: chain => close (outer.add [b.message]) chain

/-! ## Diagnostics line by line -/

/-- A diagnostic whose lines are being read: what its header says, the innermost of the open lines,
and the lines that it is inside of. -/
structure Pending where
  opened : Diagnostic
  inner : Builder
  chain : List Builder

namespace Pending

/-- Puts one more line below the open lines. -/
def push (p : Pending) (depth : Nat) (text : List Char) : Pending :=
  let (b, chain) := popTo depth p.inner p.chain
  { p with inner := ⟨text, depth, []⟩, chain := b :: chain }

/-- The diagnostic, once all its lines are read. -/
def build (p : Pending) : Diagnostic :=
  let root := close p.inner p.chain
  { p.opened with message := messageOf root.text root.children }

end Pending

/-- What is known of a listing whose lines are being read. -/
structure Loop where
  done : List Diagnostic
  pending : Option Pending

namespace Loop

/-- Ends the diagnostic whose lines are being read. -/
def flush (s : Loop) : Loop :=
  ⟨s.done ++ (s.pending.map Pending.build).toList, none⟩

/-- Reads one more line. -/
def step (directory : Location) (s : Loop) : Line → Except Path.Fault Loop
  | .header h => do
    let opened ← h.toDiagnostic directory []
    return { s.flush with pending := some ⟨opened, ⟨h.text, 0, []⟩, []⟩ }
  | .continuation depth text =>
    match s.pending with
    | some p => .ok { s with pending := some (p.push depth text) }
    | none => .ok s.flush
  | .other => .ok s.flush

/-- Reads lines one after the other. -/
def runFrom (directory : Location) (s : Loop) : List Line → Except Path.Fault (List Diagnostic)
  | [] => .ok s.flush.done
  | l :: lines => do
    let s ← s.step directory l
    s.runFrom directory lines

end Loop

/-! ## What becomes of open lines -/

variable {α : Type} {p q : α → Bool}

theorem takeWhile_takeWhile_of_imp (h : ∀ a, p a = true → q a = true) (xs : List α) :
    (xs.takeWhile q).takeWhile p = xs.takeWhile p := by
  induction xs with
  | nil => rfl
  | cons x xs ih =>
    cases hp : p x with
    | true => simp [hp, h x hp, ih]
    | false => cases hq : q x <;> simp [hp, hq]

theorem dropWhile_takeWhile_of_imp (h : ∀ a, p a = true → q a = true) (xs : List α) :
    (xs.takeWhile q).dropWhile p = (xs.dropWhile p).takeWhile q := by
  induction xs with
  | nil => rfl
  | cons x xs ih =>
    cases hp : p x with
    | true => simp [hp, h x hp, ih]
    | false => cases hq : q x <;> simp [hp, hq]

theorem dropWhile_dropWhile_of_imp (h : ∀ a, p a = true → q a = true) (xs : List α) :
    (xs.dropWhile p).dropWhile q = xs.dropWhile q := by
  induction xs with
  | nil => rfl
  | cons x xs ih =>
    cases hp : p x with
    | true => simp [hp, h x hp, ih]
    | false => simp [hp]

/-- The outermost one of the open lines, once lines are put below them: each open line gets those
that are deeper than it is, up to the first one that is not. -/
def complete (b : Builder) (lines : List (Nat × List Char)) : List Builder → Builder
  | [] => b.add (forest lines)
  | outer :: chain =>
    complete (outer.add [(b.add (forest (lines.takeWhile (b.depth < ·.1)))).message])
      (lines.dropWhile (b.depth < ·.1)) chain

theorem complete_nil (b : Builder) (chain : List Builder) :
    complete b [] chain = close b chain := by
  induction chain generalizing b with
  | nil => rw [complete, close, forest, Builder.add_nil]
  | cons outer chain ih =>
    rw [complete, close, List.takeWhile_nil, List.dropWhile_nil, forest, Builder.add_nil, ih]

/-- One line more is put where it belongs, and what follows it is put below it or outside of it. -/
theorem complete_cons (b : Builder) (depth : Nat) (text : List Char)
    (lines : List (Nat × List Char)) (chain : List Builder) :
    complete b ((depth, text) :: lines) chain =
      complete ⟨text, depth, []⟩ lines ((popTo depth b chain).1 :: (popTo depth b chain).2) := by
  induction chain generalizing b with
  | nil =>
    rw [popTo, complete, complete, complete, forest, Builder.add_add]
    rfl
  | cons outer chain ih =>
    rw [popTo]
    by_cases hdepth : depth ≤ b.depth
    -- the line is not below this one, which is done with
    · have hstop : ¬ decide (b.depth < depth) = true := by simpa using hdepth
      rw [if_pos hdepth, ← ih, complete, List.takeWhile_cons_of_neg (by exact hstop),
        List.dropWhile_cons_of_neg (by exact hstop), forest, Builder.add_nil]
    -- the line is below this one, and what is deeper than the line is deeper than this one, too
    · have hbelow : decide (b.depth < depth) = true := by simpa using hdepth
      have hdeeper : ∀ e : Nat × List Char, decide (depth < e.1) = true →
          decide (b.depth < e.1) = true := by
        intro e he
        rw [decide_eq_true_eq] at he hbelow ⊢
        exact Nat.lt_trans hbelow he
      rw [if_neg hdepth, complete, complete, complete, List.takeWhile_cons_of_pos (by exact hbelow),
        List.dropWhile_cons_of_pos (by exact hbelow), forest, takeWhile_takeWhile_of_imp hdeeper,
        dropWhile_takeWhile_of_imp hdeeper]
      have hdepth : (b.add [(Builder.add ⟨text, depth, []⟩
          (forest (lines.takeWhile (depth < ·.1)))).message]).depth = b.depth := rfl
      rw [hdepth, dropWhile_dropWhile_of_imp hdeeper, Builder.add_add]
      rfl

namespace Pending

/-- The diagnostic, once these lines are read as well. -/
def buildWith (p : Pending) (lines : List (Nat × List Char)) : Diagnostic :=
  let root := complete p.inner lines p.chain
  { p.opened with message := messageOf root.text root.children }

theorem buildWith_nil (p : Pending) : p.buildWith [] = p.build := by
  unfold buildWith build
  rw [complete_nil]

/-- **One line more** below the open lines. -/
theorem buildWith_push (p : Pending) (depth : Nat) (text : List Char)
    (lines : List (Nat × List Char)) :
    (p.push depth text).buildWith lines = p.buildWith ((depth, text) :: lines) := by
  unfold buildWith push
  rw [complete_cons]

end Pending

/-! ## Reading on -/

variable {directory : Location}

/-- The diagnostic of a header is what the header says, with the message of its lines. -/
theorem toDiagnostic_eq_map (h : Header) (directory : Location) (lines : List (Nat × List Char)) :
    h.toDiagnostic directory (forest lines) = (h.toDiagnostic directory []).map fun opened =>
      Pending.buildWith ⟨opened, ⟨h.text, 0, []⟩, []⟩ lines := by
  unfold Header.toDiagnostic
  cases h.place with
  | none => rfl
  | some placed =>
    dsimp only
    cases (Path.ofString (.ofList placed.1)).resolve directory with
    | error fault => rfl
    | ok place => rfl

namespace Loop

/-- What is done of a listing once these lines are read as well, which go on with the diagnostic
whose lines are being read. -/
def doneWith (s : Loop) (lines : List (Nat × List Char)) : List Diagnostic :=
  s.done ++ (s.pending.map (Pending.buildWith · lines)).toList

theorem done_flush (s : Loop) : s.flush.done = s.doneWith [] := by
  unfold flush doneWith
  cases s.pending with
  | none => rfl
  | some p => rw [Option.map_some, Option.map_some, p.buildWith_nil]

theorem doneWith_flush (s : Loop) (lines : List (Nat × List Char)) :
    s.flush.doneWith lines = s.doneWith [] := by
  rw [doneWith, done_flush]
  exact List.append_nil _

/-- **Reading on from any state**: what is done stays, the diagnostic whose lines are being read
gets the lines that go on with it, and what follows is read by blocks. -/
theorem runFrom_eq (s : Loop) (lines : List Line) :
    s.runFrom directory lines = (diagnosticsOf directory lines).map fun ds =>
      s.doneWith (continuations lines) ++ ds := by
  induction lines generalizing s with
  | nil =>
    rw [runFrom, diagnosticsOf, done_flush]
    exact congrArg Except.ok (List.append_nil _).symm
  | cons l lines ih =>
    cases l with
    -- a header ends one diagnostic and begins another one
    | header h =>
      rw [runFrom, diagnosticsOf, step, toDiagnostic_eq_map]
      cases h.toDiagnostic directory [] with
      | error fault => rfl
      | ok opened =>
        simp only [bind, Except.bind, pure, Except.pure, Except.map, ih]
        cases diagnosticsOf directory lines with
        | error fault => rfl
        | ok ds =>
          simp only [continuations, doneWith, done_flush, Option.map_some, Option.toList_some,
            List.append_assoc, List.singleton_append]
    | continuation depth text =>
      have hskip : diagnosticsOf directory (.continuation depth text :: lines) =
          diagnosticsOf directory lines := rfl
      rw [runFrom, hskip, step, continuations]
      cases hpending : s.pending with
      | none =>
        simp only [bind, Except.bind, ih, doneWith_flush]
        unfold doneWith
        rw [hpending]
        rfl
      | some p =>
        simp only [bind, Except.bind, ih]
        unfold doneWith
        rw [hpending, Option.map_some, Option.map_some, p.buildWith_push]
    | other =>
      have hnone : continuations (.other :: lines) = [] := rfl
      have hskip : diagnosticsOf directory (.other :: lines) = diagnosticsOf directory lines := rfl
      rw [runFrom, hskip, step, hnone]
      simp only [bind, Except.bind, ih, doneWith_flush]

end Loop

/-- **Reading line by line gives what reading by blocks gives.** -/
theorem diagnosticsOf_eq_loop (directory : Location) (lines : List Line) :
    diagnosticsOf directory lines = Loop.runFrom directory ⟨[], none⟩ lines := by
  rw [Loop.runFrom_eq]
  cases diagnosticsOf directory lines with
  | error fault => rfl
  | ok ds => rfl

end ExpectedDiagnostics.Listing
