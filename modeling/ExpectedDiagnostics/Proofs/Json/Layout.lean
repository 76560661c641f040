import ExpectedDiagnostics.Proofs.Data
import ExpectedDiagnostics.Proofs.Json.Texts

/-!
# Layouts of documents

The writers differ in the blanks that they put between the parts of a document: behind an opening
bracket, behind a comma and in front of a closing bracket. A `Layout` says which ones, and `written`
writes a value in any layout, so that what holds of all layouts is proved only once.

Main results:

* `toList_compact` / `toList_indented` — the two writers follow layouts of their own.
* `forall_mem_written` — a written document has no characters but those of ASCII that are no control
  characters, and those of its layout.
-/

namespace ExpectedDiagnostics.Json

/-! ## Plain values -/

mutual

/-- A value of a document that is read as it was written. -/
def IsPlain : Data → Prop
  | .null | .bool _ | .int _ | .text _ => True
  | .torn pieces => IsTorn pieces
  | .float _ | .moment _ => False
  | .list items => ArePlainItems items
  | .table fields => (fields.map (·.1)).Nodup ∧ ArePlainFields fields

def ArePlainItems : List Data → Prop
  | [] => True
  | item :: items => IsPlain item ∧ ArePlainItems items

def ArePlainFields : List (String × Data) → Prop
  | [] => True
  | (_, value) :: fields => IsPlain value ∧ ArePlainFields fields

end

theorem arePlainItems_iff {items : List Data} :
    ArePlainItems items ↔ ∀ item ∈ items, IsPlain item := by
  induction items with
  | nil => simp [ArePlainItems]
  | cons item items ih => rw [ArePlainItems, ih, List.forall_mem_cons]

theorem arePlainFields_iff {fields : List (String × Data)} :
    ArePlainFields fields ↔ ∀ f ∈ fields, IsPlain f.2 := by
  induction fields with
  | nil => simp [ArePlainFields]
  | cons f fields ih => rw [ArePlainFields, ih, List.forall_mem_cons]

/-! ## Layouts -/

/-- The blanks between the parts of a list or table that is inside `depth` others. -/
structure Layout where
  afterOpening : Nat → List Char
  afterComma : Nat → List Char
  beforeClosing : Nat → List Char
  blank : ∀ depth, ∀ c ∈ afterOpening depth ++ afterComma depth ++ beforeClosing depth,
    isBlank c = true

namespace Layout

/-- All on one line, with a space behind each comma. -/
def oneLine : Layout where
  afterOpening _ := []
  afterComma _ := [' ']
  beforeClosing _ := []
  blank _ c hc := by
    rw [List.mem_singleton.mp hc]
    decide

theorem mem_newLine {depth : Nat} {c : Char} (hc : c ∈ (newLine depth).toList) :
    c = '\n' ∨ c = ' ' := by
  have hline : "\n".toList = ['\n'] := rfl
  unfold newLine at hc
  rw [String.toList_append, hline, String.toList_ofList, List.singleton_append, List.mem_cons] at hc
  exact hc.imp_right List.eq_of_mem_replicate

/-- Each part on a line of its own. -/
def onLines : Layout where
  afterOpening depth := (newLine (depth + 1)).toList
  afterComma depth := (newLine (depth + 1)).toList
  beforeClosing depth := (newLine depth).toList
  blank depth c hc := by
    have hmem : c = '\n' ∨ c = ' ' := by
      rw [List.mem_append, List.mem_append] at hc
      exact hc.elim (·.elim mem_newLine mem_newLine) mem_newLine
    rcases hmem with rfl | rfl
    all_goals decide

/-- What is written between two brackets. -/
def enclosed (l : Layout) (depth : Nat) (opening closing : Char) (cs : List Char) : List Char :=
  opening :: (l.afterOpening depth ++ (cs ++ (l.beforeClosing depth ++ [closing])))

end Layout

/-! ## Writing in a layout -/

mutual

/-- A value inside `depth` lists or tables. -/
def written (l : Layout) (depth : Nat) : Data → List Char
  | .list [] => ['[', ']']
  | .list (item :: items) => l.enclosed depth '[' ']' (writtenItems l depth (item :: items))
  | .table [] => ['\x7b', '\x7d']
  | .table (field :: fields) =>
    l.enclosed depth '\x7b' '\x7d' (writtenFields l depth (field :: fields))
  | value => (compact value).toList

/-- The items of a list inside `depth` lists or tables. -/
def writtenItems (l : Layout) (depth : Nat) : List Data → List Char
  | [] => []
  | [item] => written l (depth + 1) item
  | item :: next :: items =>
    written l (depth + 1) item ++ ',' :: (l.afterComma depth ++ writtenItems l depth (next :: items))

/-- The fields of a table inside `depth` lists or tables. -/
def writtenFields (l : Layout) (depth : Nat) : List (String × Data) → List Char
  | [] => []
  | [(name, value)] => (writeText name).toList ++ ':' :: ' ' :: written l (depth + 1) value
  | (name, value) :: next :: fields =>
    (writeText name).toList ++ ':' :: ' ' :: (written l (depth + 1) value ++
      ',' :: (l.afterComma depth ++ writtenFields l depth (next :: fields)))

end

/-! ## The two writers -/

theorem compactItems_eq_map (items : List Data) : compactItems items = items.map compact := by
  induction items with
  | nil => rfl
  | cons item items ih => rw [compactItems, ih, List.map_cons]

theorem compactFields_eq_map (fields : List (String × Data)) :
    compactFields fields = fields.map fun f => writeText f.1 ++ ": " ++ compact f.2 := by
  induction fields with
  | nil => rfl
  | cons field fields ih => rw [compactFields, ih, List.map_cons]

theorem indentedItems_eq_map (depth : Nat) (items : List Data) :
    indentedItems depth items = items.map (indentedAt depth) := by
  induction items with
  | nil => rfl
  | cons item items ih => rw [indentedItems, ih, List.map_cons]

theorem indentedFields_eq_map (depth : Nat) (fields : List (String × Data)) :
    indentedFields depth fields =
      fields.map fun f => writeText f.1 ++ ": " ++ indentedAt depth f.2 := by
  induction fields with
  | nil => rfl
  | cons field fields ih => rw [indentedFields, ih, List.map_cons]

section Joined

variable {l : Layout} {depth : Nat} {separator : String} {write : Data → String}
  (hseparator : separator.toList = ',' :: l.afterComma depth)
include hseparator

/-- Items are joined as the layout says if each of them is written as it says. -/
theorem toList_joined_items {items : List Data}
    (h : ∀ item ∈ items, (write item).toList = written l (depth + 1) item) :
    (joined separator (items.map write)).toList = writtenItems l depth items := by
  induction items with
  | nil => rfl
  | cons item items ih =>
    obtain ⟨hitem, hitems⟩ := List.forall_mem_cons.mp h
    cases items with
    | nil => exact hitem
    | cons next items =>
      have hrest := ih hitems
      rw [List.map_cons] at hrest
      rw [List.map_cons, List.map_cons, joined, String.toList_append, String.toList_append, hitem,
        hseparator, hrest, writtenItems]
      · simp only [List.append_assoc, List.cons_append]
      · exact nofun

theorem toList_joined_fields {fields : List (String × Data)}
    (h : ∀ f ∈ fields, (write f.2).toList = written l (depth + 1) f.2) :
    (joined separator (fields.map fun f => writeText f.1 ++ ": " ++ write f.2)).toList =
      writtenFields l depth fields := by
  have hcolon : ": ".toList = [':', ' '] := rfl
  induction fields with
  | nil => rfl
  | cons field fields ih =>
    obtain ⟨hfield, hfields⟩ := List.forall_mem_cons.mp h
    cases fields with
    | nil =>
      rw [List.map_cons, List.map_nil, joined, String.toList_append, String.toList_append, hcolon,
        hfield, writtenFields]
      simp only [List.append_assoc, List.cons_append, List.nil_append]
    | cons next fields =>
      have hrest := ih hfields
      rw [List.map_cons] at hrest
      rw [List.map_cons, List.map_cons, joined, String.toList_append, String.toList_append,
        String.toList_append, String.toList_append, hcolon, hfield, hseparator, hrest, writtenFields]
      · simp only [List.append_assoc, List.cons_append, List.nil_append]
      · exact nofun

end Joined

theorem toList_brackets : "[".toList = ['['] ∧ "]".toList = [']'] ∧ "\x7b".toList = ['\x7b'] ∧
    "\x7d".toList = ['\x7d'] := ⟨rfl, rfl, rfl, rfl⟩

/-- The writer of one line follows the layout on one line. -/
theorem toList_compact (v : Data) (depth : Nat) :
    (compact v).toList = written .oneLine depth v := by
  -- the blanks on one line are the same at every depth
  have hcomma : ", ".toList = ',' :: Layout.oneLine.afterComma depth := rfl
  obtain ⟨hopen, hclose, hopen', hclose'⟩ := toList_brackets
  induction v using Data.parts_induction generalizing depth with
  | list items ih =>
    have hitems := toList_joined_items hcomma fun item hitem => ih item hitem (depth + 1) rfl
    cases items with
    | nil => rfl
    | cons item items =>
      rw [compact, compactItems_eq_map, String.toList_append, String.toList_append, hitems, hopen,
        hclose, written]
      rfl
  | table fields ih =>
    have hfields := toList_joined_fields hcomma fun f hf => ih f hf (depth + 1) rfl
    cases fields with
    | nil => rfl
    | cons field fields =>
      rw [compact, compactFields_eq_map, String.toList_append, String.toList_append, hfields,
        hopen', hclose', written]
      rfl
  | _ => rfl

theorem toList_block_nil (opening closing : String) (depth : Nat) :
    (block opening closing depth []).toList = opening.toList ++ closing.toList :=
  String.toList_append

theorem toList_block_cons (opening closing : String) (depth : Nat) (part : String)
    (parts : List String) : (block opening closing depth (part :: parts)).toList =
      opening.toList ++ ((newLine (depth + 1)).toList ++
        ((joined ("," ++ newLine (depth + 1)) (part :: parts)).toList ++
          ((newLine depth).toList ++ closing.toList))) := by
  unfold block
  rw [if_neg (by simp)]
  simp only [String.toList_append, List.append_assoc]

/-- The writer of several lines follows the layout on lines. -/
theorem toList_indentedAt (v : Data) (depth : Nat) :
    (indentedAt depth v).toList = written .onLines depth v := by
  obtain ⟨hopen, hclose, hopen', hclose'⟩ := toList_brackets
  have hcomma : ∀ depth, ("," ++ newLine (depth + 1)).toList =
      ',' :: Layout.onLines.afterComma depth := by
    intro depth
    rw [String.toList_append]
    rfl
  induction v using Data.parts_induction generalizing depth with
  | list items ih =>
    have hitems := toList_joined_items (hcomma depth) fun item hitem => ih item hitem (depth + 1)
    rw [indentedAt, indentedItems_eq_map]
    cases items with
    | nil => rw [List.map_nil, toList_block_nil, hopen, hclose, written, List.singleton_append]
    | cons item items =>
      rw [List.map_cons] at hitems ⊢
      rw [toList_block_cons, hitems, hopen, hclose, written]
      rfl
  | table fields ih =>
    have hfields := toList_joined_fields (hcomma depth) fun f hf => ih f hf (depth + 1)
    rw [indentedAt, indentedFields_eq_map]
    cases fields with
    | nil => rw [List.map_nil, toList_block_nil, hopen', hclose', written, List.singleton_append]
    | cons field fields =>
      rw [List.map_cons] at hfields ⊢
      rw [toList_block_cons, hfields, hopen', hclose', written]
      rfl
  | _ => rfl

/-! ## Characters -/

/-- A character of ASCII that is no control character. -/
def IsPrintable (c : Char) : Prop :=
  32 ≤ c.toNat ∧ c.toNat < 127

instance (c : Char) : Decidable (IsPrintable c) :=
  inferInstanceAs (Decidable (_ ∧ _))

def ArePrintable (cs : List Char) : Prop :=
  ∀ c ∈ cs, IsPrintable c

instance (cs : List Char) : Decidable (ArePrintable cs) :=
  List.decidableBAll IsPrintable cs

theorem ArePrintable.append {cs ds : List Char} (hcs : ArePrintable cs) (hds : ArePrintable ds) :
    ArePrintable (cs ++ ds) :=
  List.forall_mem_append.mpr ⟨hcs, hds⟩

theorem arePrintable_unitEscape {n : Nat} (hn : n < 0x10000) : ArePrintable (unitEscape n) := by
  have hdigit : ∀ d < 16, ArePrintable [Nat.digitChar d] := by decide
  have hfront : ArePrintable ['\\', 'u'] := by decide
  rw [unitEscape, hex_four hn]
  exact hfront.append ((hdigit _ (by omega)).append ((hdigit _ (by omega)).append
    ((hdigit _ (by omega)).append (hdigit _ (by omega)))))

theorem arePrintable_escapedChar (c : Char) : ArePrintable (escapedChar c) := by
  have hvalid : c.toNat < 0xD800 ∨ 0xDFFF < c.toNat ∧ c.toNat < 0x110000 := c.valid
  unfold escapedChar
  split_ifs with hmark hline hreturn htab hfeed hback hplain hunit
  · rw [Bool.or_eq_true, beq_iff_eq, beq_iff_eq] at hmark
    rcases hmark with rfl | rfl
    all_goals decide
  · decide
  · decide
  · decide
  · decide
  · decide
  · intro d hd
    rw [List.mem_singleton.mp hd]
    simpa [IsPrintable] using hplain
  · exact arePrintable_unitEscape (by omega)
  · exact (arePrintable_unitEscape (by omega)).append (arePrintable_unitEscape (by omega))

theorem toList_writeText (s : String) :
    (writeText s).toList = '"' :: (s.toList.flatMap escapedChar ++ ['"']) := by
  rw [writeText, String.toList_ofList, List.cons_append]

theorem arePrintable_writeText (s : String) : ArePrintable (writeText s).toList := by
  have hmark : ArePrintable ['"'] := by decide
  rw [toList_writeText]
  refine hmark.append (.append ?_ hmark)
  intro c hc
  obtain ⟨d, -, hd⟩ := List.mem_flatMap.mp hc
  exact arePrintable_escapedChar d c hd

theorem toList_writePieces (pieces : List Text.Piece) :
    (writePieces pieces).toList = '"' :: (pieces.flatMap escapedPiece ++ ['"']) := by
  rw [writePieces, String.toList_ofList, List.cons_append]

theorem arePrintable_writePieces {pieces : List Text.Piece} (h : IsTorn pieces) :
    ArePrintable (writePieces pieces).toList := by
  have hmark : ArePrintable ['"'] := by decide
  rw [toList_writePieces]
  refine hmark.append (.append ?_ hmark)
  intro c hc
  obtain ⟨p, hp, hc⟩ := List.mem_flatMap.mp hc
  cases p with
  | char d => exact arePrintable_escapedChar d c hc
  | half n =>
    have hn := h.unit n hp
    exact arePrintable_unitEscape (by omega) c hc

theorem arePrintable_toDigits (n : Nat) : ArePrintable (Nat.toDigits 10 n) := by
  intro c hc
  have hrange := Char.isDigit_iff_toNat.mp (isDigit_of_mem_toDigits hc)
  have hzero : '0'.toNat = 0x30 := rfl
  have hnine : '9'.toNat = 0x39 := rfl
  unfold IsPrintable
  omega

/-- The characters of a layout have a property. -/
def Layout.Within (l : Layout) (p : Char → Prop) : Prop :=
  ∀ depth, ∀ c ∈ l.afterOpening depth ++ l.afterComma depth ++ l.beforeClosing depth, p c

section Characters

variable {l : Layout} {p : Char → Prop} (hprintable : ∀ c, IsPrintable c → p c) (hl : l.Within p)
include hprintable hl

theorem forall_mem_enclosed {opening closing : Char} {cs : List Char} {depth : Nat}
    (hopening : IsPrintable opening) (hclosing : IsPrintable closing) (hcs : ∀ c ∈ cs, p c) :
    ∀ c ∈ l.enclosed depth opening closing cs, p c := by
  obtain ⟨hfront, hback⟩ := List.forall_mem_append.mp (hl depth)
  obtain ⟨hfront, -⟩ := List.forall_mem_append.mp hfront
  unfold Layout.enclosed
  simp only [List.forall_mem_cons, List.forall_mem_append]
  exact ⟨hprintable _ hopening, hfront, hcs, hback, hprintable _ hclosing, by simp⟩

theorem forall_mem_comma {cs : List Char} {depth : Nat} (hcs : ∀ c ∈ cs, p c) :
    ∀ c ∈ ',' :: (l.afterComma depth ++ cs), p c := by
  obtain ⟨hfront, -⟩ := List.forall_mem_append.mp (hl depth)
  obtain ⟨-, hcomma⟩ := List.forall_mem_append.mp hfront
  simp only [List.forall_mem_cons, List.forall_mem_append]
  exact ⟨hprintable _ (by decide), hcomma, hcs⟩

theorem forall_mem_writtenItems {items : List Data} {depth : Nat}
    (h : ∀ item ∈ items, ∀ c ∈ written l (depth + 1) item, p c) :
    ∀ c ∈ writtenItems l depth items, p c := by
  induction items with
  | nil => exact fun c hc => absurd hc List.not_mem_nil
  | cons item items ih =>
    obtain ⟨hitem, hitems⟩ := List.forall_mem_cons.mp h
    cases items with
    | nil => exact hitem
    | cons next items =>
      rw [writtenItems, List.forall_mem_append]
      exact ⟨hitem, forall_mem_comma hprintable hl (ih hitems)⟩

theorem forall_mem_writtenFields {fields : List (String × Data)} {depth : Nat}
    (h : ∀ f ∈ fields, ∀ c ∈ written l (depth + 1) f.2, p c) :
    ∀ c ∈ writtenFields l depth fields, p c := by
  have hcolon : p ':' ∧ p ' ' := ⟨hprintable _ (by decide), hprintable _ (by decide)⟩
  induction fields with
  | nil => exact fun c hc => absurd hc List.not_mem_nil
  | cons field fields ih =>
    obtain ⟨hfield, hfields⟩ := List.forall_mem_cons.mp h
    have hname : ∀ c ∈ (writeText field.1).toList, p c := fun c hc =>
      hprintable c (arePrintable_writeText field.1 c hc)
    cases fields with
    | nil =>
      rw [writtenFields, List.forall_mem_append, List.forall_mem_cons, List.forall_mem_cons]
      exact ⟨hname, hcolon.1, hcolon.2, hfield⟩
    | cons next fields =>
      rw [writtenFields, List.forall_mem_append, List.forall_mem_cons, List.forall_mem_cons,
        List.forall_mem_append]
      exact ⟨hname, hcolon.1, hcolon.2, hfield, forall_mem_comma hprintable hl (ih hfields)⟩

/-- **The characters of a written document** are printable ones and those of its layout. -/
theorem forall_mem_written {v : Data} (h : IsPlain v) (depth : Nat) :
    ∀ c ∈ written l depth v, p c := by
  -- on the parts of the value, each of which is inside one list or table more
  have hbrackets : IsPrintable '[' ∧ IsPrintable ']' ∧ IsPrintable '\x7b' ∧ IsPrintable '\x7d' := by
    decide
  obtain ⟨hopen, hclose, hopen', hclose'⟩ := hbrackets
  have hword : ∀ {cs : List Char}, ArePrintable cs → ∀ c ∈ cs, p c := by
    intro cs hcs c hc
    exact hprintable c (hcs c hc)
  induction v using Data.parts_induction generalizing depth with
  | null => exact hword (show ArePrintable "null".toList by decide)
  | bool b =>
    cases b with
    | true => exact hword (show ArePrintable "true".toList by decide)
    | false => exact hword (show ArePrintable "false".toList by decide)
  | int n =>
    refine hword ?_
    rw [written, compact]
    · cases n with
      | ofNat n =>
        rw [Int.ofNat_eq_natCast, toList_toString_natCast]
        exact arePrintable_toDigits n
      | negSucc n =>
        have hminus : ArePrintable ['-'] := by decide
        rw [toList_toString_negSucc]
        exact hminus.append (arePrintable_toDigits (n + 1))
    all_goals exact nofun
  | float x => exact h.elim
  | text s => exact hword (arePrintable_writeText s)
  | torn pieces => exact hword (arePrintable_writePieces h)
  | moment m => exact h.elim
  | list items ih =>
    have hitems := arePlainItems_iff.mp h
    cases items with
    | nil => exact hword (show ArePrintable ['[', ']'] by decide)
    | cons item items =>
      rw [written]
      refine forall_mem_enclosed hprintable hl hopen hclose ?_
      exact forall_mem_writtenItems hprintable hl fun part hpart =>
        ih part hpart (hitems part hpart) (depth + 1)
  | table fields ih =>
    have hfields := arePlainFields_iff.mp h.2
    cases fields with
    | nil => exact hword (show ArePrintable ['\x7b', '\x7d'] by decide)
    | cons field fields =>
      rw [written]
      refine forall_mem_enclosed hprintable hl hopen' hclose' ?_
      exact forall_mem_writtenFields hprintable hl fun f hf =>
        ih f hf (hfields f hf) (depth + 1)

end Characters

end ExpectedDiagnostics.Json
