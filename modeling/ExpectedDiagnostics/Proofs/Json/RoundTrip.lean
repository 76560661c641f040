import ExpectedDiagnostics.Proofs.Json.Layout

/-!
# Reading written documents

A value that is written in any layout is read as the value it was, if it has no doubles and no days,
and no name twice in a table (`IsPlain`). The reader skips the blanks of the layout, and it needs
less fuel than it is given, because each step that it takes leaves characters behind.

Main results:

* `isReadBack` — a value that is written in a layout is read as the value, whatever closes it.
* `read_written` — reading undoes writing, in any layout.
* `read_compact`, `read_indented` — so it undoes both writers.
* `arePrintable_compact`, `isAscii_indented` — what both write is ASCII.
-/

namespace ExpectedDiagnostics.Json

/-! ## The shape of documents -/

theorem skipBlanks_append {blanks : List Char} (h : ∀ c ∈ blanks, isBlank c = true) {c : Char}
    (hc : isBlank c = false) (cs : List Char) (pos : Nat) :
    skipBlanks (blanks ++ c :: cs) pos = (c :: cs, pos + blanks.length) := by
  have hstop : ∀ d ∈ (c :: cs).head?, isBlank d = false := by
    intro d hd
    rwa [← Option.some.inj hd]
  obtain ⟨htake, hdrop⟩ := Text.takeWhile_append_stop h hstop
  unfold skipBlanks
  rw [htake, hdrop]

theorem skipBlanks_cons {c : Char} (hc : isBlank c = false) (cs : List Char) (pos : Nat) :
    skipBlanks (c :: cs) pos = (c :: cs, pos) :=
  skipBlanks_append (fun _ hd => absurd hd List.not_mem_nil) hc cs pos

theorem skipBlanks_space {c : Char} (hc : isBlank c = false) (cs : List Char) (pos : Nat) :
    skipBlanks (' ' :: c :: cs) pos = (c :: cs, pos + 1) := by
  have hspace : ∀ d ∈ [' '], isBlank d = true := List.forall_mem_singleton.mpr (by decide)
  exact skipBlanks_append hspace hc cs pos

namespace Layout

variable {l : Layout} {depth : Nat}

theorem blank_afterOpening : ∀ c ∈ l.afterOpening depth, isBlank c = true := by
  intro c hc
  exact l.blank depth c (List.mem_append_left _ (List.mem_append_left _ hc))

theorem blank_afterComma : ∀ c ∈ l.afterComma depth, isBlank c = true := by
  intro c hc
  exact l.blank depth c (List.mem_append_left _ (List.mem_append_right _ hc))

theorem blank_beforeClosing : ∀ c ∈ l.beforeClosing depth, isBlank c = true := by
  intro c hc
  exact l.blank depth c (List.mem_append_right _ hc)

end Layout

theorem of_isDigit {c : Char} (hc : c.isDigit = true) :
    isBlank c = false ∧ c ≠ ']' ∧ c ≠ '\x7d' := by
  refine ⟨?_, ?_, ?_⟩
  · rw [Bool.eq_false_iff]
    intro hblank
    simp only [isBlank, Bool.or_eq_true, beq_iff_eq] at hblank
    rcases hblank with ((rfl | rfl) | rfl) | rfl
    all_goals exact absurd hc (by decide)
  all_goals
    rintro rfl
    exact absurd hc (by decide)

section Layouts

variable (l : Layout) (depth : Nat)

/-- A written value begins with no blank and with no closing bracket. -/
theorem exists_cons_written {v : Data} (h : IsPlain v) :
    ∃ c cs, written l depth v = c :: cs ∧ isBlank c = false ∧ c ≠ ']' ∧ c ≠ '\x7d' := by
  cases v with
  | null => exact ⟨_, _, rfl, by decide⟩
  | bool b => cases b <;> exact ⟨_, _, rfl, by decide⟩
  | int n =>
    cases n with
    | ofNat n =>
      obtain ⟨d, ds, hds⟩ := List.exists_cons_of_ne_nil (Nat.toDigits_ne_nil (n := n) (b := 10))
      have hd := of_isDigit (isDigit_of_mem_toDigits (hds ▸ List.mem_cons_self : d ∈ _))
      exact ⟨d, ds, (toList_toString_natCast n).trans hds, hd⟩
    | negSucc n => exact ⟨_, _, toList_toString_negSucc n, by decide⟩
  | float x => exact h.elim
  | text s => exact ⟨_, _, toList_writeText s, by decide⟩
  | torn pieces => exact ⟨_, _, toList_writePieces pieces, by decide⟩
  | moment m => exact h.elim
  | list items => cases items <;> exact ⟨_, _, rfl, by decide⟩
  | table fields => cases fields <;> exact ⟨_, _, rfl, by decide⟩

theorem exists_cons_writtenItems {items : List Data} (hne : items ≠ [])
    (h : ∀ item ∈ items, IsPlain item) :
    ∃ c cs, writtenItems l depth items = c :: cs ∧ isBlank c = false ∧ c ≠ ']' := by
  obtain ⟨item, items, rfl⟩ := List.exists_cons_of_ne_nil hne
  obtain ⟨c, cs, hcs, hblank, hclose, -⟩ :=
    exists_cons_written l (depth + 1) (h item List.mem_cons_self)
  cases items with
  | nil => exact ⟨c, cs, hcs, hblank, hclose⟩
  | cons next items => exact ⟨c, _, by rw [writtenItems, hcs, List.cons_append], hblank, hclose⟩

theorem exists_cons_writtenFields {fields : List (String × Data)} (hne : fields ≠ []) :
    ∃ cs, writtenFields l depth fields = '"' :: cs := by
  obtain ⟨⟨name, value⟩, fields, rfl⟩ := List.exists_cons_of_ne_nil hne
  cases fields with
  | nil => exact ⟨_, by rw [writtenFields, toList_writeText, List.cons_append]⟩
  | cons next fields => exact ⟨_, by rw [writtenFields, toList_writeText, List.cons_append]⟩

end Layouts

/-! ## Reading values -/

/-- A text that begins with a digit is read as a number, and so is one with a minus sign before the
digit. -/
theorem readValue_digit {c : Char} (hc : c.isDigit = true) (fuel : Nat) (cs : List Char)
    (pos : Nat) :
    readValue (fuel + 1) (c :: cs) pos = readNumber (c :: cs) pos ∧
      readValue (fuel + 1) ('-' :: c :: cs) pos = readNumber ('-' :: c :: cs) pos := by
  have hne : ∀ d : Char, d.isDigit = false → d ≠ c := by
    rintro d hd rfl
    rw [hc] at hd
    exact absurd hd (by decide)
  have hmark := (hne '"' (by decide)).symm
  have hbrace := (hne '\x7b' (by decide)).symm
  have hbracket := (hne '[' (by decide)).symm
  have hn := hne 'n' (by decide)
  have ht := hne 't' (by decide)
  have hf := hne 'f' (by decide)
  have hN := hne 'N' (by decide)
  have hI := hne 'I' (by decide)
  have hminus := hne '-' (by decide)
  constructor
  · rw [readValue]
    simp [names, readName?, hn, ht, hf, hN, hI, hminus]
    all_goals simp [hmark, hbrace, hbracket]
  · rw [readValue]
    simp [names, readName?, hI]
    all_goals simp

/-- A field whose name is new comes behind the others. -/
theorem setField_new {fields more : List (String × Data)} {name : String} {value : Data}
    (h : ((fields ++ (name, value) :: more).map (·.1)).Nodup) :
    Data.setField fields name value = fields ++ [(name, value)] := by
  have hnew : fields.any (·.1 == name) = false := by
    rw [List.any_eq_false]
    intro field hfield heq
    rw [List.map_append, List.map_cons, List.nodup_append] at h
    refine h.2.2 field.1 (List.mem_map_of_mem hfield) name List.mem_cons_self ?_
    exact eq_of_beq heq
  rw [Data.setField, hnew]
  rfl

/-- A field is read up to what follows its value: first the name, then the value, which does not
begin with a blank. -/
theorem readFields_field {fuel : Nat} {c : Char} {cs tail : List Char} {value : Data}
    (hc : isBlank c = false)
    (hvalue : ∀ pos, Reads (readValue fuel (c :: (cs ++ tail)) pos) value tail) (name : String)
    (pos : Nat) (done : List (String × Data)) :
    ∃ next, readFields (fuel + 1) ((writeText name).toList ++ ':' :: ' ' :: c :: (cs ++ tail)) pos
        done =
      let (rest, next) := skipBlanks tail next
      match rest with
      | '\x7d' :: rest => .ok (.table (Data.setField done name value), rest, next + 1)
      | ',' :: rest =>
        let (rest, next) := skipBlanks rest (next + 1)
        readFields fuel rest next (Data.setField done name value)
      | _ => .error ⟨.comma, next⟩ := by
  obtain ⟨colon, hcolon⟩ := readText_writeText name pos (pos + 1) (':' :: ' ' :: c :: (cs ++ tail))
  obtain ⟨next, hnext⟩ := hvalue (colon + 2)
  refine ⟨next, ?_⟩
  rw [toList_writeText, List.cons_append, List.append_assoc, List.singleton_append, readFields,
    hcolon]
  simp only [bind, Except.bind, skipBlanks_cons (c := ':') (by decide), skipBlanks_space hc, hnext,
    Text.shownPieces_piecesOf]
  rfl

/-- A value is read back from a layout, at any depth and in front of anything that closes it. -/
def IsReadBack (l : Layout) (v : Data) : Prop :=
  ∀ depth fuel, 2 * (written l depth v).length ≤ fuel → ∀ rest, Closes rest → ∀ pos,
    Reads (readValue fuel (written l depth v ++ rest) pos) v rest

/-- There is fuel for a value that is written. -/
theorem exists_fuel {l : Layout} {depth : Nat} {v : Data} (h : IsPlain v) {fuel : Nat}
    (hfuel : 2 * (written l depth v).length ≤ fuel) : ∃ k, fuel = k + 1 := by
  obtain ⟨c, cs, hcs, -⟩ := exists_cons_written l depth h
  rw [hcs, List.length_cons] at hfuel
  exact ⟨fuel - 1, by omega⟩

/-- An item is read up to what follows it. -/
theorem readItems_item {fuel : Nat} {cs tail : List Char} {item : Data} {pos : Nat}
    (hitem : Reads (readValue fuel (cs ++ tail) pos) item tail) (done : List Data) :
    ∃ next, readItems (fuel + 1) (cs ++ tail) pos done =
      let (rest, next) := skipBlanks tail next
      match rest with
      | ']' :: rest => .ok (.list (done ++ [item]), rest, next + 1)
      | ',' :: rest =>
        let (rest, next) := skipBlanks rest (next + 1)
        readItems fuel rest next (done ++ [item])
      | _ => .error ⟨.comma, next⟩ := by
  obtain ⟨next, hnext⟩ := hitem
  refine ⟨next, ?_⟩
  rw [readItems, hnext]
  rfl

section Parts

variable {l : Layout} {depth : Nat}

theorem closes_bracket {c : Char} (hc : c ∈ closers) (rest : List Char) :
    Closes (l.beforeClosing depth ++ c :: rest) :=
  closes_append Layout.blank_beforeClosing hc rest

theorem readItems_written {items : List Data} (hne : items ≠ [])
    (h : ∀ item ∈ items, IsPlain item ∧ IsReadBack l item) (rest : List Char) {fuel : Nat}
    (hfuel : 2 * (writtenItems l depth items).length + 3 ≤ fuel) (pos : Nat) (done : List Data) :
    Reads (readItems fuel (writtenItems l depth items ++ (l.beforeClosing depth ++ ']' :: rest))
      pos done) (.list (done ++ items)) rest := by
  induction items generalizing fuel pos done with
  | nil => exact absurd rfl hne
  | cons item items ih =>
    obtain ⟨fuel, rfl⟩ : ∃ k, fuel = k + 1 := ⟨fuel - 1, by omega⟩
    obtain ⟨⟨-, hitem⟩, hitems⟩ := List.forall_mem_cons.mp h
    cases items with
    | nil =>
      rw [writtenItems] at hfuel ⊢
      have hclose : Closes (l.beforeClosing depth ++ ']' :: rest) :=
        closes_bracket (by decide) rest
      have hread := hitem (depth + 1) fuel (by omega) _ hclose pos
      obtain ⟨next, hnext⟩ := readItems_item hread done
      rw [skipBlanks_append Layout.blank_beforeClosing (by decide)] at hnext
      exact ⟨_, hnext⟩
    | cons more items =>
      rw [writtenItems] at hfuel ⊢
      rw [List.length_append, List.length_cons, List.length_append] at hfuel
      rw [List.append_assoc, List.cons_append, List.append_assoc]
      have hclose := closes_cons (by decide : ',' ∈ closers) (l.afterComma depth ++
        (writtenItems l depth (more :: items) ++ (l.beforeClosing depth ++ ']' :: rest)))
      have hread := hitem (depth + 1) fuel (by omega) _ hclose pos
      obtain ⟨next, hnext⟩ := readItems_item hread done
      obtain ⟨c, cs, hcs, hblank, -⟩ := exists_cons_writtenItems l depth
        (List.cons_ne_nil more items) fun part hpart => (hitems part hpart).1
      have henough : 2 * (writtenItems l depth (more :: items)).length + 3 ≤ fuel := by omega
      have hrest := ih (List.cons_ne_nil more items) hitems henough
        (next + 1 + (l.afterComma depth).length) (done ++ [item])
      rw [List.append_assoc, List.singleton_append] at hrest
      -- the reader skips the blanks behind the comma
      rw [skipBlanks_cons (by decide)] at hnext
      simp only [hcs, List.cons_append] at hnext hrest ⊢
      rw [skipBlanks_append Layout.blank_afterComma hblank] at hnext
      rw [hnext]
      exact hrest

theorem readFields_written {fields : List (String × Data)} (hne : fields ≠ [])
    (h : ∀ f ∈ fields, IsPlain f.2 ∧ IsReadBack l f.2) (rest : List Char) {fuel : Nat}
    (hfuel : 2 * (writtenFields l depth fields).length + 3 ≤ fuel) (pos : Nat)
    (done : List (String × Data)) (hnames : ((done ++ fields).map (·.1)).Nodup) :
    Reads (readFields fuel
        (writtenFields l depth fields ++ (l.beforeClosing depth ++ '\x7d' :: rest)) pos done)
      (.table (done ++ fields)) rest := by
  induction fields generalizing fuel pos done with
  | nil => exact absurd rfl hne
  | cons field fields ih =>
    obtain ⟨fuel, rfl⟩ : ∃ k, fuel = k + 1 := ⟨fuel - 1, by omega⟩
    obtain ⟨name, value⟩ := field
    obtain ⟨hfield, hfields⟩ := List.forall_mem_cons.mp h
    have hplain : IsPlain value := hfield.1
    have hvalue : IsReadBack l value := hfield.2
    have hset := setField_new hnames
    obtain ⟨c, cs, hcs, hblank, -⟩ := exists_cons_written l (depth + 1) hplain
    cases fields with
    | nil =>
      rw [writtenFields] at hfuel ⊢
      rw [List.length_append, List.length_cons, List.length_cons] at hfuel
      have hclose : Closes (l.beforeClosing depth ++ '\x7d' :: rest) :=
        closes_bracket (by decide) rest
      have hread := fun pos => hvalue (depth + 1) fuel (by omega) _ hclose pos
      simp only [hcs, List.cons_append] at hread
      obtain ⟨next, hnext⟩ := readFields_field hblank hread name pos done
      rw [skipBlanks_append Layout.blank_beforeClosing (by decide), hset] at hnext
      simp only [hcs, List.append_assoc, List.cons_append]
      exact ⟨_, hnext⟩
    | cons more fields =>
      rw [writtenFields] at hfuel ⊢
      rw [List.length_append, List.length_cons, List.length_cons, List.length_append,
        List.length_cons, List.length_append] at hfuel
      have hclose := closes_cons (by decide : ',' ∈ closers) (l.afterComma depth ++
        (writtenFields l depth (more :: fields) ++ (l.beforeClosing depth ++ '\x7d' :: rest)))
      have hread := fun pos => hvalue (depth + 1) fuel (by omega) _ hclose pos
      simp only [hcs, List.cons_append] at hread
      obtain ⟨next, hnext⟩ := readFields_field hblank hread name pos done
      obtain ⟨ds, hds⟩ := exists_cons_writtenFields l depth
        (List.cons_ne_nil more fields)
      have henough : 2 * (writtenFields l depth (more :: fields)).length + 3 ≤ fuel := by omega
      have hrest := ih (List.cons_ne_nil more fields) hfields henough
        (next + 1 + (l.afterComma depth).length) (done ++ [(name, value)]) (by
          rw [List.append_assoc, List.singleton_append]
          exact hnames)
      rw [List.append_assoc, List.singleton_append] at hrest
      rw [skipBlanks_cons (by decide), hset] at hnext
      dsimp only at hnext
      simp only [hcs, hds, List.append_assoc, List.cons_append] at hnext hrest ⊢
      rw [skipBlanks_append Layout.blank_afterComma (by decide)] at hnext
      rw [hnext]
      exact hrest

end Parts

theorem isReadBack_int (l : Layout) (n : Int) : IsReadBack l (.int n) := by
  intro depth fuel hfuel rest hrest pos
  have htext : written l depth (.int n) = (toString n).toList := rfl
  obtain ⟨fuel, rfl⟩ := exists_fuel (v := .int n) trivial hfuel
  rw [htext]
  cases n with
  | ofNat n =>
    have hread := (readNumber_toDigits n hrest pos).1
    rw [Int.ofNat_eq_natCast, toList_toString_natCast]
    obtain ⟨d, ds, hds⟩ := List.exists_cons_of_ne_nil (Nat.toDigits_ne_nil (n := n) (b := 10))
    have hd := isDigit_of_mem_toDigits (hds ▸ List.mem_cons_self : d ∈ _)
    rw [hds, List.cons_append] at hread ⊢
    rwa [(readValue_digit hd fuel (ds ++ rest) pos).1]
  | negSucc n =>
    have hread := (readNumber_toDigits (n + 1) hrest pos).2
    rw [toList_toString_negSucc, Int.negSucc_eq]
    obtain ⟨d, ds, hds⟩ := List.exists_cons_of_ne_nil (Nat.toDigits_ne_nil (n := n + 1) (b := 10))
    have hd := isDigit_of_mem_toDigits (hds ▸ List.mem_cons_self : d ∈ _)
    rw [hds, List.cons_append] at hread
    rw [hds, List.cons_append, List.cons_append]
    rwa [(readValue_digit hd fuel (ds ++ rest) pos).2]

theorem isReadBack_text (l : Layout) (s : String) : IsReadBack l (.text s) := by
  intro depth fuel hfuel rest _ pos
  have htext : written l depth (.text s) = (writeText s).toList := rfl
  obtain ⟨fuel, rfl⟩ := exists_fuel (v := .text s) trivial hfuel
  obtain ⟨next, hnext⟩ := readText_writeText s pos (pos + 1) rest
  refine ⟨next, ?_⟩
  rw [htext, toList_writeText, List.cons_append, List.append_assoc, List.singleton_append,
    readValue, hnext, ← Data.ofPieces_piecesOf]
  rfl

theorem isReadBack_torn (l : Layout) {pieces : List Text.Piece} (h : IsTorn pieces) :
    IsReadBack l (.torn pieces) := by
  intro depth fuel hfuel rest _ pos
  have htext : written l depth (.torn pieces) = (writePieces pieces).toList := rfl
  obtain ⟨fuel, rfl⟩ := exists_fuel (v := .torn pieces) h hfuel
  obtain ⟨next, hnext⟩ := readText_writePieces h pos (pos + 1) rest
  refine ⟨next, ?_⟩
  rw [htext, toList_writePieces, List.cons_append, List.append_assoc, List.singleton_append,
    readValue, hnext, ← ofPieces_of_isTorn h]
  rfl

theorem isReadBack_list (l : Layout) {items : List Data}
    (h : ∀ item ∈ items, IsPlain item ∧ IsReadBack l item) : IsReadBack l (.list items) := by
  have hplain : IsPlain (.list items) := arePlainItems_iff.mpr fun item hitem => (h item hitem).1
  intro depth fuel hfuel rest _ pos
  obtain ⟨fuel, rfl⟩ := exists_fuel hplain hfuel
  cases items with
  | nil => exact ⟨pos + 2, rfl⟩
  | cons item items =>
    rw [written, Layout.enclosed] at hfuel ⊢
    rw [List.length_cons, List.length_append, List.length_append, List.length_append,
      List.length_singleton] at hfuel
    obtain ⟨c, cs, hcs, hblank, hclose⟩ := exists_cons_writtenItems l depth
      (List.cons_ne_nil item items) fun part hpart => (h part hpart).1
    have henough : 2 * (writtenItems l depth (item :: items)).length + 3 ≤ fuel := by omega
    have hread := readItems_written (List.cons_ne_nil item items) h rest henough
      (pos + 1 + (l.afterOpening depth).length) []
    simp only [hcs, List.append_assoc, List.cons_append, List.nil_append] at hread ⊢
    -- the reader skips the blanks behind the bracket, and does not find the closing one
    rw [readValue, skipBlanks_append Layout.blank_afterOpening hblank]
    dsimp only
    split
    · rename_i heq
      exact absurd (List.cons.inj heq).1 hclose
    · exact hread

theorem isReadBack_table (l : Layout) {fields : List (String × Data)}
    (hnames : (fields.map (·.1)).Nodup) (h : ∀ f ∈ fields, IsPlain f.2 ∧ IsReadBack l f.2) :
    IsReadBack l (.table fields) := by
  have hplain : IsPlain (.table fields) := ⟨hnames, arePlainFields_iff.mpr fun f hf => (h f hf).1⟩
  intro depth fuel hfuel rest _ pos
  obtain ⟨fuel, rfl⟩ := exists_fuel hplain hfuel
  cases fields with
  | nil => exact ⟨pos + 2, rfl⟩
  | cons field fields =>
    rw [written, Layout.enclosed] at hfuel ⊢
    rw [List.length_cons, List.length_append, List.length_append, List.length_append,
      List.length_singleton] at hfuel
    obtain ⟨cs, hcs⟩ := exists_cons_writtenFields l depth
      (List.cons_ne_nil field fields)
    have henough : 2 * (writtenFields l depth (field :: fields)).length + 3 ≤ fuel := by omega
    have hread := readFields_written (List.cons_ne_nil field fields) h rest henough
      (pos + 1 + (l.afterOpening depth).length) [] hnames
    simp only [hcs, List.append_assoc, List.cons_append, List.nil_append] at hread ⊢
    rw [readValue, skipBlanks_append Layout.blank_afterOpening (by decide)]
    exact hread

/-- **A plain value is read back from any layout.** -/
theorem isReadBack (l : Layout) {v : Data} (h : IsPlain v) : IsReadBack l v := by
  induction v using Data.parts_induction with
  | null =>
    intro depth fuel hfuel rest _ pos
    obtain ⟨fuel, rfl⟩ := exists_fuel (v := .null) trivial hfuel
    exact ⟨pos + 4, rfl⟩
  | bool b =>
    intro depth fuel hfuel rest _ pos
    obtain ⟨fuel, rfl⟩ := exists_fuel (v := .bool b) trivial hfuel
    cases b with
    | true => exact ⟨pos + 4, rfl⟩
    | false => exact ⟨pos + 5, rfl⟩
  | int n => exact isReadBack_int l n
  | float x => exact h.elim
  | text s => exact isReadBack_text l s
  | torn pieces => exact isReadBack_torn l h
  | moment m => exact h.elim
  | list items ih =>
    have hitems := arePlainItems_iff.mp h
    exact isReadBack_list l fun item hitem => ⟨hitems item hitem, ih item hitem (hitems item hitem)⟩
  | table fields ih =>
    have hfields := arePlainFields_iff.mp h.2
    exact isReadBack_table l h.1 fun f hf => ⟨hfields f hf, ih f hf (hfields f hf)⟩

/-! ## Documents -/

/-- **Reading undoes writing**, in any layout and with nothing but blanks behind it. -/
theorem read_written (l : Layout) (depth : Nat) {v : Data} (h : IsPlain v) :
    read (written l depth v) = .ok v := by
  have hmark : ∀ c ∈ written l depth v, c ≠ '\uFEFF' := by
    refine forall_mem_written (p := fun c => c ≠ '\uFEFF') ?_ ?_ h depth
    · rintro c hc rfl
      exact absurd hc (by decide)
    · intro depth c hc
      rintro rfl
      exact absurd (l.blank depth _ hc) (by decide)
  have hclose : Closes [] := fun c hc => nomatch hc
  obtain ⟨c, cs, hcs, hblank, -⟩ := exists_cons_written l depth h
  obtain ⟨next, hnext⟩ := isReadBack l h depth (2 * (written l depth v).length + 2) (by omega) []
    hclose 0
  rw [List.append_nil] at hnext
  have hfirst : c ≠ '\uFEFF' := hmark c (by rw [hcs]; exact List.mem_cons_self)
  rw [hcs] at hnext ⊢
  unfold read
  split
  · rename_i heq
    exact absurd (List.cons.inj heq).1 hfirst
  · rw [skipBlanks_cons hblank]
    simp only [bind, Except.bind, hnext]
    rfl

theorem read_compact {v : Data} (h : IsPlain v) : read (compact v).toList = .ok v := by
  rw [toList_compact v 0]
  exact read_written .oneLine 0 h

theorem read_indented {v : Data} (h : IsPlain v) : read (indented v).toList = .ok v := by
  unfold indented
  rw [toList_indentedAt]
  exact read_written .onLines 0 h

/-- A document on one line has no line ends and no other control characters. -/
theorem arePrintable_compact {v : Data} (h : IsPlain v) : ArePrintable (compact v).toList := by
  rw [toList_compact v 0]
  refine forall_mem_written (fun _ hc => hc) ?_ h 0
  intro _ c hc
  rw [List.mem_singleton.mp hc]
  decide

/-- A document on several lines is ASCII. -/
theorem isAscii_indented {v : Data} (h : IsPlain v) : ∀ c ∈ (indented v).toList, c.toNat < 128 := by
  unfold indented
  rw [toList_indentedAt]
  refine forall_mem_written (p := fun c => c.toNat < 128) ?_ ?_ h 0
  · intro c hc
    exact Nat.lt_succ_of_lt hc.2
  · intro depth c hc
    have hblank := Layout.onLines.blank depth c hc
    simp only [isBlank, Bool.or_eq_true, beq_iff_eq] at hblank
    rcases hblank with ((rfl | rfl) | rfl) | rfl
    all_goals decide

end ExpectedDiagnostics.Json
