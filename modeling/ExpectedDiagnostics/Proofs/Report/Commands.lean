import ExpectedDiagnostics.Json.Reader
import ExpectedDiagnostics.Proofs.Text.Integer
import ExpectedDiagnostics.Report.Reporter
import ExpectedDiagnostics.Text.Start
import Mathlib.Data.List.Basic
import Mathlib.Logic.Function.Basic

/-!
# Workflow commands are read back

A build service cuts the printed text at line ends, a command at the first comma or colon behind its
file, and then undoes the escapes. Whatever characters the paths and messages have, this gives the
remarks of the run (`Remark`): one for each failure, each file that was given up and, if they are
asked for, each diagnostic that is left over.

Main results:

* `unescape_flatMap` — escapes are undone.
* `messageText_eq_replaced`, `propertyText_eq_replaced` — the order in which they are written.
* `read?_lineCommand`, `read?_fileCommand` — what is read of a command.
* `printed_reads_back` — what is read of all that is printed, line by line.
-/

namespace ExpectedDiagnostics.Report.WorkflowCommand

/-! ## Reading a command -/

/-- Undoes escapes: a percent sign with two hexadecimal digits behind it stands for a character. -/
def unescape : List Char → List Char
  | '%' :: a :: b :: cs =>
    match Json.hexValue? a, Json.hexValue? b with
    | some m, some n => Char.ofNat (16 * m + n) :: unescape cs
    | _, _ => '%' :: unescape (a :: b :: cs)
  | c :: cs => c :: unescape cs
  | [] => []

/-- A text in which the escapes have been undone. -/
def unescaped (cs : List Char) : String :=
  .ofList (unescape cs)

/-- What a command says: a file, a line of it, counted from one, unless it is about the whole file,
and a message. -/
structure Remark where
  path : String
  line : Option Int
  message : String
  deriving DecidableEq, Repr

/-- Tells whether a property of a command goes on with a character. -/
def isInside (c : Char) : Bool :=
  c != ',' && c != ':'

/-- The remark about a file, by what comes behind the file in a command. -/
def readBehind? (path : String) (cs : List Char) : Option Remark :=
  match Text.after? ",line=".toList cs with
  | none => do
    let message ← Text.after? "::".toList cs
    return ⟨path, none, unescaped message⟩
  | some rest => do
    let line ← Text.integer? (rest.takeWhile isInside)
    let message ← Text.after? "::".toList (rest.dropWhile isInside)
    return ⟨path, some line, unescaped message⟩

/-- The remark that a line makes, if it is a command about a file. The file ends in front of the
first comma or colon. -/
def read? (cs : List Char) : Option Remark := do
  let rest ← Text.after? "::error file=".toList cs
  readBehind? (unescaped (rest.takeWhile isInside)) (rest.dropWhile isInside)

/-- The remarks that an event gives rise to. -/
def remarks (unexpected : Bool) : Event → List Remark
  | .finished s =>
    s.failures.map (fun o =>
        ⟨s.path, some (o.line + 1), "Expected: " ++ o.expected ++ " / Actual: " ++ o.actual⟩) ++
      if unexpected then
        s.leftovers.map fun d => ⟨s.path, some (d.line + 1), "Unexpected error: " ++ d.display⟩
      else []
  | .aborted path problem => [⟨path, none, problem.message⟩]
  | .begun _ | .checked _ | .done _ => []

/-! ## Escapes -/

theorem unescape_cons {c : Char} (hc : c ≠ '%') (cs : List Char) :
    unescape (c :: cs) = c :: unescape cs := by
  rw [unescape]
  intro a b rest hpercent
  exact absurd hpercent hc

/-- Escapes are undone if those of each character are, whatever comes behind it. -/
theorem unescape_flatMap {f : Char → List Char}
    (hf : ∀ c cs, unescape (f c ++ cs) = c :: unescape cs) (cs : List Char) :
    unescape (cs.flatMap f) = cs := by
  induction cs with
  | nil => rfl
  | cons c cs ih => rw [List.flatMap_cons, hf, ih]

/-- A character stands for itself in a message, unless it is a percent sign or ends a line. -/
theorem messageChar_eq_self {c : Char} (hc : c ∉ ['%', '\r', '\n']) : messageChar c = [c] := by
  simp only [List.mem_cons, List.not_mem_nil, or_false, not_or] at hc
  simp [messageChar, hc]

/-- In a property it does so unless it ends the property, too. -/
theorem propertyChar_eq_self {c : Char} (hc : c ∉ ['%', '\r', '\n', ':', ',']) :
    propertyChar c = [c] := by
  simp only [List.mem_cons, List.not_mem_nil, or_false, not_or] at hc
  simp [propertyChar, messageChar, hc]

theorem unescape_messageChar (c : Char) (cs : List Char) :
    unescape (messageChar c ++ cs) = c :: unescape cs := by
  by_cases hc : c ∈ ['%', '\r', '\n']
  · simp only [List.mem_cons, List.not_mem_nil, or_false] at hc
    rcases hc with rfl | rfl | rfl <;> rfl
  · rw [messageChar_eq_self hc]
    exact unescape_cons (List.ne_of_not_mem_cons hc) cs

theorem unescape_propertyChar (c : Char) (cs : List Char) :
    unescape (propertyChar c ++ cs) = c :: unescape cs := by
  by_cases hc : c ∈ ['%', '\r', '\n', ':', ',']
  · simp only [List.mem_cons, List.not_mem_nil, or_false] at hc
    rcases hc with rfl | rfl | rfl | rfl | rfl <;> rfl
  · rw [propertyChar_eq_self hc]
    exact unescape_cons (List.ne_of_not_mem_cons hc) cs

/-- Writes a text in the place of each occurrence of a character. -/
def replaced (c : Char) (text : List Char) (cs : List Char) : List Char :=
  cs.flatMap fun d => if d == c then text else [d]

/-- The characters of a message may be replaced one kind after another. The percent signs come
first, or else those of the other escapes would be escaped again. -/
theorem messageText_eq_replaced (s : String) :
    messageText s = .ofList (replaced '\n' ['%', '0', 'A']
      (replaced '\r' ['%', '0', 'D'] (replaced '%' ['%', '2', '5'] s.toList))) := by
  unfold messageText replaced
  rw [List.flatMap_assoc, List.flatMap_assoc]
  refine congrArg String.ofList (List.flatMap_congr fun c _ => ?_)
  by_cases hc : c ∈ ['%', '\r', '\n'] <;>
    simp only [List.mem_cons, List.not_mem_nil, or_false, not_or] at hc
  · rcases hc with rfl | rfl | rfl <;> rfl
  · simp [messageChar, hc]

/-- Those of a property are replaced in what is then a message. -/
theorem propertyText_eq_replaced (s : String) :
    propertyText s = .ofList (replaced ',' ['%', '2', 'C']
      (replaced ':' ['%', '3', 'A'] (messageText s).toList)) := by
  unfold propertyText messageText replaced
  rw [String.toList_ofList, List.flatMap_assoc, List.flatMap_assoc]
  refine congrArg String.ofList (List.flatMap_congr fun c _ => ?_)
  by_cases hc : c ∈ ['%', '\r', '\n', ':', ','] <;>
    simp only [List.mem_cons, List.not_mem_nil, or_false, not_or] at hc
  · rcases hc with rfl | rfl | rfl | rfl | rfl <;> rfl
  · simp [propertyChar, messageChar, hc]

theorem unescaped_messageText (s : String) : unescaped (messageText s).toList = s := by
  unfold unescaped messageText
  rw [String.toList_ofList, unescape_flatMap unescape_messageChar, String.ofList_toList]

theorem unescaped_propertyText (s : String) : unescaped (propertyText s).toList = s := by
  unfold unescaped propertyText
  rw [String.toList_ofList, unescape_flatMap unescape_propertyChar, String.ofList_toList]

theorem messageText_injective : Function.Injective messageText := by
  intro s t h
  rw [← unescaped_messageText s, h, unescaped_messageText]

theorem propertyText_injective : Function.Injective propertyText := by
  intro s t h
  rw [← unescaped_propertyText s, h, unescaped_propertyText]

/-! ## Characters that do not come up -/

/-- What is written for a character is the character itself, or an escape. -/
theorem mem_messageChar {c d : Char} (hd : d ∈ messageChar c) :
    d ∈ ['%', '0', '2', '5', 'A', 'D'] ∨ d = c ∧ c ∉ ['%', '\r', '\n'] := by
  have hescapes : ∀ c ∈ ['%', '\r', '\n'], messageChar c ⊆ ['%', '0', '2', '5', 'A', 'D'] := by
    simp [messageChar]
  by_cases hc : c ∈ ['%', '\r', '\n']
  · exact .inl (hescapes c hc hd)
  · rw [messageChar_eq_self hc] at hd
    exact .inr ⟨List.mem_singleton.mp hd, hc⟩

theorem mem_propertyChar {c d : Char} (hd : d ∈ propertyChar c) :
    d ∈ ['%', '0', '2', '3', '5', 'A', 'C', 'D'] ∨ d = c ∧ c ∉ ['%', '\r', '\n', ':', ','] := by
  have hescapes : ∀ c ∈ ['%', '\r', '\n', ':', ','],
      propertyChar c ⊆ ['%', '0', '2', '3', '5', 'A', 'C', 'D'] := by
    simp [propertyChar, messageChar]
  by_cases hc : c ∈ ['%', '\r', '\n', ':', ',']
  · exact .inl (hescapes c hc hd)
  · rw [propertyChar_eq_self hc] at hd
    exact .inr ⟨List.mem_singleton.mp hd, hc⟩

/-- **No character of a message ends a line.** -/
theorem not_mem_messageText (s : String) {c : Char} (hc : c ∈ ['\r', '\n']) :
    c ∉ (messageText s).toList := by
  have hescapes : ∀ c ∈ ['\r', '\n'], c ∉ ['%', '0', '2', '5', 'A', 'D'] := by simp
  intro hmem
  rw [messageText, String.toList_ofList, List.mem_flatMap] at hmem
  obtain ⟨d, -, hd⟩ := hmem
  rcases mem_messageChar hd with hescape | ⟨rfl, hself⟩
  · exact hescapes c hc hescape
  · exact hself (List.mem_cons_of_mem _ hc)

/-- **No character of a property ends a line or the property.** -/
theorem not_mem_propertyText (s : String) {c : Char} (hc : c ∈ ['\r', '\n', ':', ',']) :
    c ∉ (propertyText s).toList := by
  have hescapes : ∀ c ∈ ['\r', '\n', ':', ','], c ∉ ['%', '0', '2', '3', '5', 'A', 'C', 'D'] := by
    simp
  intro hmem
  rw [propertyText, String.toList_ofList, List.mem_flatMap] at hmem
  obtain ⟨d, -, hd⟩ := hmem
  rcases mem_propertyChar hd with hescape | ⟨rfl, hself⟩
  · exact hescapes c hc hescape
  · exact hself (List.mem_cons_of_mem _ hc)

/-! ## Commands -/

theorem isInside_of_ne {c : Char} (hcomma : c ≠ ',') (hcolon : c ≠ ':') : isInside c = true := by
  rw [isInside, Bool.and_eq_true, bne_iff_ne, bne_iff_ne]
  exact ⟨hcomma, hcolon⟩

theorem areInside_propertyText (path : String) :
    ∀ c ∈ (propertyText path).toList, isInside c = true := by
  have hcomma : ',' ∉ (propertyText path).toList := not_mem_propertyText path (by decide)
  have hcolon : ':' ∉ (propertyText path).toList := not_mem_propertyText path (by decide)
  intro c hc
  exact isInside_of_ne (ne_of_mem_of_not_mem hc hcomma) (ne_of_mem_of_not_mem hc hcolon)

theorem areInside_toString (line : Int) : ∀ c ∈ (toString line).toList, isInside c = true := by
  have hcomma : ',' ∉ (toString line).toList := mt Text.eq_minus_or_isDigit (by decide)
  have hcolon : ':' ∉ (toString line).toList := mt Text.eq_minus_or_isDigit (by decide)
  intro c hc
  exact isInside_of_ne (ne_of_mem_of_not_mem hc hcomma) (ne_of_mem_of_not_mem hc hcolon)

/-- A part of a command ends in front of the comma or the colon that comes behind it. -/
theorem cut_part {part : List Char} (hpart : ∀ c ∈ part, isInside c = true) {mark : Char}
    (hmark : isInside mark = false) (rest : List Char) :
    (part ++ mark :: rest).takeWhile isInside = part ∧
      (part ++ mark :: rest).dropWhile isInside = mark :: rest := by
  apply Text.takeWhile_append_stop hpart
  intro c hc
  obtain rfl := Option.some.inj hc
  exact hmark

/-- Whatever comes behind it, the file of a command is the path for which it was written. -/
theorem read?_command (path : String) {mark : Char} (hmark : isInside mark = false)
    (rest : List Char) :
    read? ("::error file=".toList ++ ((propertyText path).toList ++ mark :: rest)) =
      readBehind? path (mark :: rest) := by
  obtain ⟨hfile, hrest⟩ := cut_part (areInside_propertyText path) hmark rest
  unfold read?
  rw [Text.after?_append, Option.bind_eq_bind, Option.bind_some, hfile, hrest,
    unescaped_propertyText]

/-- **A command for a line** says which one it is. -/
theorem read?_lineCommand (path : String) (line : Int) (message : String) :
    read? (lineCommand path line message).toList = some ⟨path, some (line + 1), message⟩ := by
  have hcomma : isInside ',' = false := rfl
  have hcolon : isInside ':' = false := rfl
  have htext : (lineCommand path line message).toList =
      "::error file=".toList ++ ((propertyText path).toList ++ (",line=".toList ++
        ((toString (line + 1)).toList ++ ("::".toList ++ (messageText message).toList)))) := by
    unfold lineCommand
    simp only [String.toList_append, List.append_assoc]
  have hcut := cut_part (areInside_toString (line + 1)) hcolon
    (':' :: (messageText message).toList)
  have hnumber : ((toString (line + 1)).toList ++
      ("::".toList ++ (messageText message).toList)).takeWhile isInside =
        (toString (line + 1)).toList := hcut.1
  have hrest : ((toString (line + 1)).toList ++
      ("::".toList ++ (messageText message).toList)).dropWhile isInside =
        "::".toList ++ (messageText message).toList := hcut.2
  rw [htext]
  refine (read?_command path hcomma _).trans ?_
  show readBehind? path (",line=".toList ++
    ((toString (line + 1)).toList ++ ("::".toList ++ (messageText message).toList))) = _
  unfold readBehind?
  rw [Text.after?_append]
  dsimp only
  rw [hnumber, hrest, Text.integer?_toString, Text.after?_append]
  show some (⟨path, some (line + 1), unescaped (messageText message).toList⟩ : Remark) = _
  rw [unescaped_messageText]

/-- **A command for a file** says that there is no line. -/
theorem read?_fileCommand (path message : String) :
    read? (fileCommand path message).toList = some ⟨path, none, message⟩ := by
  have hcolon : isInside ':' = false := rfl
  have htext : (fileCommand path message).toList =
      "::error file=".toList ++
        ((propertyText path).toList ++ ("::".toList ++ (messageText message).toList)) := by
    unfold fileCommand
    simp only [String.toList_append, List.append_assoc]
  have hnone : Text.after? ",line=".toList ("::".toList ++ (messageText message).toList) = none :=
    rfl
  rw [htext]
  refine (read?_command path hcolon _).trans ?_
  show readBehind? path ("::".toList ++ (messageText message).toList) = _
  unfold readBehind?
  rw [hnone]
  dsimp only
  rw [Text.after?_append]
  show some (⟨path, none, unescaped (messageText message).toList⟩ : Remark) = _
  rw [unescaped_messageText]

/-- The commands of an event are read as its remarks. -/
theorem read?_commands (unexpected : Bool) (e : Event) :
    (commands unexpected e).map (fun command => read? command.toList) =
      (remarks unexpected e).map some := by
  cases e with
  | finished s =>
    unfold commands remarks
    rw [List.map_append, List.map_append, List.map_map, List.map_map]
    refine congrArg₂ (· ++ ·) ?_ ?_
    · exact List.map_congr_left fun o _ => read?_lineCommand s.path o.line _
    · cases unexpected with
      | false => rfl
      | true =>
        rw [if_pos rfl, if_pos rfl, List.map_map, List.map_map]
        exact List.map_congr_left fun d _ => read?_lineCommand s.path d.line _
  | aborted path problem => exact congrArg (fun r => [r]) (read?_fileCommand path problem.message)
  | begun path => rfl
  | checked outcome => rfl
  | done s => rfl

/-- The command of a run is not about a file. -/
theorem read?_doneCommand (unexpected : Bool) (s : RunSummary) :
    read? (doneCommand unexpected s).toList = none := by
  unfold doneCommand
  simp only [String.toList_append, List.append_assoc]
  cases s.passed <;> rfl

/-! ## Lines -/

theorem newline_not_mem_append {s t : String} (hs : '\n' ∉ s.toList) (ht : '\n' ∉ t.toList) :
    '\n' ∉ (s ++ t).toList := by
  rw [String.toList_append, List.mem_append, not_or]
  exact ⟨hs, ht⟩

theorem newline_not_mem_toString (line : Int) : '\n' ∉ (toString line).toList :=
  mt Text.eq_minus_or_isDigit (by decide)

theorem newline_not_mem_lineCommand (path : String) (line : Int) (message : String) :
    '\n' ∉ (lineCommand path line message).toList := by
  unfold lineCommand
  refine newline_not_mem_append (newline_not_mem_append (newline_not_mem_append
    (newline_not_mem_append (newline_not_mem_append ?_ ?_) ?_) ?_) ?_) ?_
  · decide
  · exact not_mem_propertyText path (by decide)
  · decide
  · exact newline_not_mem_toString (line + 1)
  · decide
  · exact not_mem_messageText message (by decide)

theorem newline_not_mem_fileCommand (path message : String) :
    '\n' ∉ (fileCommand path message).toList := by
  unfold fileCommand
  refine newline_not_mem_append (newline_not_mem_append (newline_not_mem_append ?_ ?_) ?_) ?_
  · decide
  · exact not_mem_propertyText path (by decide)
  · decide
  · exact not_mem_messageText message (by decide)

theorem newline_not_mem_describe (c : Counts) (unexpected : Bool) :
    '\n' ∉ (c.describe unexpected).toList := by
  unfold Counts.describe
  refine newline_not_mem_append (newline_not_mem_append (newline_not_mem_append
    (newline_not_mem_append ?_ ?_) ?_) ?_) ?_
  · decide
  · exact newline_not_mem_toString c.successes
  · decide
  · exact newline_not_mem_toString c.failures
  · cases unexpected with
    | false => exact List.not_mem_nil
    | true => exact newline_not_mem_append (by decide) (newline_not_mem_toString c.leftovers)

theorem newline_not_mem_doneCommand (unexpected : Bool) (s : RunSummary) :
    '\n' ∉ (doneCommand unexpected s).toList := by
  unfold doneCommand
  refine newline_not_mem_append (newline_not_mem_append (newline_not_mem_append
    (newline_not_mem_append ?_ ?_) ?_) ?_) ?_
  · decide
  · cases s.passed <;> decide
  · decide
  · exact newline_not_mem_describe s.totals unexpected
  · decide

/-- **No command goes over the end of a line.** -/
theorem newline_not_mem_of_mem_commands {unexpected : Bool} {e : Event} {command : String}
    (hcommand : command ∈ commands unexpected e) : '\n' ∉ command.toList := by
  cases e with
  | finished s =>
    rw [commands, List.mem_append] at hcommand
    rcases hcommand with hfailure | hleftover
    · obtain ⟨o, -, rfl⟩ := List.mem_map.mp hfailure
      exact newline_not_mem_lineCommand _ _ _
    · cases unexpected with
      | false => exact absurd hleftover List.not_mem_nil
      | true =>
        obtain ⟨d, -, rfl⟩ := List.mem_map.mp hleftover
        exact newline_not_mem_lineCommand _ _ _
  | aborted path problem =>
    obtain rfl := List.mem_singleton.mp hcommand
    exact newline_not_mem_fileCommand _ _
  | begun path => exact absurd hcommand List.not_mem_nil
  | checked outcome => exact absurd hcommand List.not_mem_nil
  | done s => exact absurd hcommand List.not_mem_nil

theorem newline_not_mem_of_mem_lines {unexpected : Bool} {past : List Event} {last : RunSummary}
    {command : String} (hcommand : command ∈ lines unexpected past last) :
    '\n' ∉ command.toList := by
  rw [lines, List.mem_append, List.mem_flatMap, List.mem_singleton] at hcommand
  rcases hcommand with ⟨e, -, he⟩ | rfl
  · exact newline_not_mem_of_mem_commands he
  · exact newline_not_mem_doneCommand _ _

/-- Lines that each have an end are lines with ends between them, and one more. -/
theorem join_lines {lines : List String} (hne : lines ≠ []) :
    String.join (lines.map (· ++ "\n")) = String.intercalate "\n" lines ++ "\n" := by
  induction lines with
  | nil => exact absurd rfl hne
  | cons line lines ih =>
    rw [List.map_cons, String.join_cons]
    cases lines with
    | nil => rw [String.intercalate_singleton, List.map_nil, String.join_nil, String.append_empty]
    | cons next lines =>
      rw [ih (List.cons_ne_nil _ _), String.intercalate_cons_cons, String.append_assoc,
        String.append_assoc, String.append_assoc]

/-! ## What is printed -/

/-- The reporter that prints commands. -/
def reporter (unexpected : Data) (single : Bool) : Reporter :=
  ⟨.github, unexpected, single⟩

/-- **What is printed of a run is read back.** The lines are commands, in the order of the events,
and behind them the command of the run. Each of them is read as the remark for which it was written,
with the path, the line and the message that this has. Different texts are written differently, a
message without the ends of lines, a property without what would end it, too. -/
theorem printed_reads_back (unexpected : Data) (single : Bool) (past : List Event)
    (last : RunSummary) :
    let r := reporter unexpected single
    let done := (doneCommand r.countsUnexpected last).toList
    (∃ (text : String) (written : List (List Char)),
      r.printed past (.done last) = text ++ "\n" ∧
      text.toList.splitOn '\n' = written ++ [done] ∧
      written.map read? = (past.flatMap (remarks r.countsUnexpected)).map some ∧
      read? done = none) ∧
    (Function.Injective messageText ∧ Function.Injective propertyText) ∧
    (∀ s, ∀ c ∈ ['\r', '\n'], c ∉ (messageText s).toList) ∧
    ∀ s, ∀ c ∈ ['\r', '\n', ':', ','], c ∉ (propertyText s).toList := by
  intro r done
  have hne : lines r.countsUnexpected past last ≠ [] := List.concat_ne_nil _ _
  have hsplit : (String.intercalate "\n" (lines r.countsUnexpected past last)).toList.splitOn '\n' =
      (lines r.countsUnexpected past last).map String.toList := by
    rw [String.toList_intercalate]
    refine List.splitOn_intercalate '\n' ?_ (mt List.map_eq_nil_iff.mp hne)
    intro command hcommand
    obtain ⟨text, htext, rfl⟩ := List.mem_map.mp hcommand
    exact newline_not_mem_of_mem_lines htext
  have hread : ((past.flatMap (commands r.countsUnexpected)).map String.toList).map read? =
      (past.flatMap (remarks r.countsUnexpected)).map some := by
    rw [List.map_map, List.map_flatMap, List.map_flatMap]
    exact List.flatMap_congr fun e _ => read?_commands r.countsUnexpected e
  refine ⟨⟨String.intercalate "\n" (lines r.countsUnexpected past last),
    (past.flatMap (commands r.countsUnexpected)).map String.toList, ?_, ?_, hread, ?_⟩,
    ⟨messageText_injective, propertyText_injective⟩, ?_, ?_⟩
  · exact join_lines hne
  · rw [hsplit, lines, List.map_append]
    rfl
  · exact read?_doneCommand r.countsUnexpected last
  · exact fun s c hc => not_mem_messageText s hc
  · exact fun s c hc => not_mem_propertyText s hc

end ExpectedDiagnostics.Report.WorkflowCommand
