import ExpectedDiagnostics.Proofs.Data
import ExpectedDiagnostics.Proofs.Except
import ExpectedDiagnostics.Proofs.Record
import ExpectedDiagnostics.Proofs.Torn
import Mathlib.Data.List.Forall2

/-!
# What a record is

The grammar of records, told without the functions that read them: which values mean a message and
which one, what the fields of a record may hold, and which diagnostic it tells of. A value is read
exactly if it is a record, and as the diagnostic that it tells of. A number has a field of its own;
only the column may always be missing, and the line if there is no file.

Texts are taken in one of two readings: by all their pieces, or by what is shown of them. Records are
read by the pieces, and only some halves can be in the name of a file.

Main results:

* `message_eq_ok_iff` — a value is read as the message it means, and else as none.
* `StandsFor.eq_reword` — what is shown of a message.
* `readTorn_eq_ok_iff` — a value is read as the diagnostic it tells of, and else as none.
* `isRecord_iff` — what tells of a diagnostic is what has the fields of a record.
-/

namespace ExpectedDiagnostics.Record

open Text (Torn piecesOf shownPieces)

/-! ## Values -/

/-- A value is a text, and these are its pieces. -/
inductive Spells : Data → Torn → Prop
  | text (s : String) : Spells (.text s) (piecesOf s)
  | torn (pieces : Torn) : Spells (.torn pieces) pieces

/-- A value is a text, and this is what is shown of it. -/
inductive Shows : Data → String → Prop
  | text (s : String) : Shows (.text s) s
  | torn (pieces : Torn) : Shows (.torn pieces) (shownPieces pieces)

/-- A value that counts as nothing: no value at all, false, zero, or empty. -/
inductive CountsAsNothing : Data → Prop
  | null : CountsAsNothing .null
  | no : CountsAsNothing (.bool false)
  | zero : CountsAsNothing (.int 0)
  | floatZero {x : Float} (h : (x == 0.0) = true) : CountsAsNothing (.float x)
  | text : CountsAsNothing (.text "")
  | torn : CountsAsNothing (.torn [])
  | list : CountsAsNothing (.list [])
  | table : CountsAsNothing (.table [])

/-- A table has a text in a field, in some reading of texts. -/
def HasText {T : Type} (reading : Data → T → Prop) (fields : List (String × Data)) (name : String)
    (s : T) : Prop :=
  ∃ value, Data.field? fields name = some value ∧ reading value s

theorem pieces?_eq_some_iff {value : Data} {pieces : Torn} :
    value.pieces? = some pieces ↔ Spells value pieces := by
  constructor
  · intro h
    unfold Data.pieces? at h
    split at h
    · obtain rfl := Option.some.inj h
      exact .text _
    · obtain rfl := Option.some.inj h
      exact .torn _
    · exact absurd h (by simp)
  · intro h
    cases h with
    | text => rfl
    | torn => rfl

theorem pieces?_eq_none_iff {value : Data} :
    value.pieces? = none ↔ ∀ pieces, ¬ Spells value pieces := by
  simp only [Option.eq_none_iff_forall_ne_some, ne_eq, pieces?_eq_some_iff]

/-- What is shown of a text is what is shown of its pieces. -/
theorem Shows.eq_shownPieces {value : Data} {s : String} {pieces : Torn} (h : Shows value s)
    (hpieces : Spells value pieces) : s = shownPieces pieces := by
  cases h with
  | text =>
    cases hpieces
    exact (Text.shownPieces_piecesOf s).symm
  | torn =>
    cases hpieces
    rfl

theorem isFalsy_iff {value : Data} : value.isFalsy = true ↔ CountsAsNothing value := by
  constructor
  · intro h
    cases value with
    | null => exact .null
    | bool b =>
      obtain rfl : b = false := by simpa [Data.isFalsy] using h
      exact .no
    | int n =>
      obtain rfl : n = 0 := by simpa [Data.isFalsy] using h
      exact .zero
    | float x => exact .floatZero h
    | text s =>
      obtain rfl : s = "" := by simpa [Data.isFalsy] using h
      exact .text
    | torn pieces =>
      obtain rfl := List.isEmpty_iff.mp h
      exact .torn
    | moment m => exact absurd h Bool.false_ne_true
    | list items =>
      obtain rfl := List.isEmpty_iff.mp h
      exact .list
    | table fields =>
      obtain rfl := List.isEmpty_iff.mp h
      exact .table
  · intro h
    cases h with
    | floatZero h => exact h
    | _ => rfl

theorem hasText_iff {fields : List (String × Data)} {name : String} {pieces : Torn} :
    (Data.field? fields name).bind Data.pieces? = some pieces ↔
      HasText Spells fields name pieces := by
  simp only [Option.bind_eq_some_iff, pieces?_eq_some_iff, HasText]

/-! ## Messages -/

/-- The message that a value means, in some reading of texts. A text means itself. A table has a text
of its own, and under `next` a list of values that mean messages, a value that counts as nothing, or
no value at all. -/
inductive Means {T : Type} (reading : Data → T → Prop) : Data → Message T → Prop
  | text {value : Data} {s : T} (h : reading value s) : Means reading value (.text s)
  | single {fields : List (String × Data)} {head : T}
      (hhead : HasText reading fields "messageText" head)
      (hnext : ∀ value ∈ Data.field? fields "next", CountsAsNothing value) :
      Means reading (.table fields) (.chain head [])
  | explained {fields : List (String × Data)} {head : T} {items : List Data}
      {next : List (Message T)}
      (hhead : HasText reading fields "messageText" head)
      (hnext : Data.field? fields "next" = some (.list items))
      (hitems : List.Forall₂ (Means reading) items next) :
      Means reading (.table fields) (.chain head next)

/-- The message that a value stands for, as it is shown. -/
abbrev StandsFor : Data → Message → Prop :=
  Means Shows

theorem nextField_eq (fields : List (String × Data)) :
    nextField fields = match Data.field? fields "next" with
      | none => .ok []
      | some value => nextOf value := by
  induction fields with
  | nil => rfl
  | cons field fields ih =>
    obtain ⟨name, value⟩ := field
    unfold nextField Data.field?
    rw [List.lookup_cons]
    by_cases hname : name = "next"
    · subst hname
      rfl
    · rw [if_neg (by simpa using hname), beq_eq_false_iff_ne.mpr (Ne.symm hname)]
      exact ih

/-- A list is read as messages one by one. -/
theorem messages_eq_ok_iff {items : List Data} {next : List (Message Torn)}
    (hitems : ∀ item ∈ items, ∀ m, message item = .ok m ↔ Means Spells item m) :
    messages items = .ok next ↔ List.Forall₂ (Means Spells) items next := by
  induction items generalizing next with
  | nil =>
    rw [messages, List.forall₂_nil_left_iff]
    exact ⟨fun h => (Except.ok.inj h).symm, fun h => h ▸ rfl⟩
  | cons item items ih =>
    have hitem := hitems item List.mem_cons_self
    have hrest := fun next =>
      @ih next fun other hother => hitems other (List.mem_cons_of_mem _ hother)
    rw [List.forall₂_cons_left_iff, messages]
    constructor
    · intro h
      obtain ⟨m, hm, h⟩ := exists_of_bind_eq_ok h
      obtain ⟨ms, hms, h⟩ := exists_of_bind_eq_ok h
      exact ⟨m, ms, (hitem m).mp hm, (hrest ms).mp hms, (Except.ok.inj h).symm⟩
    · rintro ⟨m, ms, hm, hms, rfl⟩
      rw [(hitem m).mpr hm, (hrest ms).mpr hms]
      rfl

/-- Under `next` there is nothing, or a list. -/
theorem nextOf_eq_ok_iff {value : Data} {next : List (Message Torn)}
    (hitems : ∀ items, value = .list items → ∀ item ∈ items, ∀ m,
      message item = .ok m ↔ Means Spells item m) :
    nextOf value = .ok next ↔ (CountsAsNothing value ∧ next = []) ∨
      ∃ items, value = .list items ∧ List.Forall₂ (Means Spells) items next := by
  by_cases hlist : ∃ items, value = .list items
  · obtain ⟨items, rfl⟩ := hlist
    rw [nextOf, messages_eq_ok_iff (hitems items rfl)]
    constructor
    · exact fun h => .inr ⟨items, rfl, h⟩
    · rintro (⟨hfalsy, rfl⟩ | ⟨others, hothers, h⟩)
      -- the only list that counts as nothing is the empty one
      · cases hfalsy
        exact .nil
      · rwa [Data.list.inj hothers]
  · have hvalue : nextOf value = if value.isFalsy then .ok [] else .error .nextShape := by
      unfold nextOf
      split
      · exact absurd ⟨_, rfl⟩ hlist
      · rfl
    have hnone : ¬ ∃ items, value = .list items ∧ List.Forall₂ (Means Spells) items next := by
      rintro ⟨items, hitems, -⟩
      exact hlist ⟨items, hitems⟩
    rw [hvalue, or_iff_left hnone, ← isFalsy_iff]
    split
    · rename_i hfalsy
      rw [and_iff_right hfalsy, eq_comm (a := next)]
      exact Except.ok.injEq .. |>.to_iff
    · rename_i hfalsy
      exact iff_of_false (by simp) fun h => hfalsy h.1

/-- What a table has under `next`, in some reading of texts. -/
def HasNext {T : Type} (reading : Data → T → Prop) (fields : List (String × Data))
    (next : List (Message T)) : Prop :=
  ((∀ value ∈ Data.field? fields "next", CountsAsNothing value) ∧ next = []) ∨
    ∃ items, Data.field? fields "next" = some (.list items) ∧
      List.Forall₂ (Means reading) items next

theorem nextField_eq_ok_iff {fields : List (String × Data)} {next : List (Message Torn)}
    (hfields : ∀ field ∈ fields, ∀ items, field.2 = .list items → ∀ item ∈ items, ∀ m,
      message item = .ok m ↔ Means Spells item m) :
    nextField fields = .ok next ↔ HasNext Spells fields next := by
  unfold HasNext
  rw [nextField_eq]
  cases hfield : Data.field? fields "next" with
  | none =>
    constructor
    · intro h
      exact .inl ⟨nofun, (Except.ok.inj h).symm⟩
    · rintro (⟨-, rfl⟩ | ⟨items, hitems, -⟩)
      · rfl
      · exact nomatch hitems
  | some value =>
    have hmem := Data.mem_of_field? hfield
    have hvalue := @nextOf_eq_ok_iff value next (hfields _ hmem)
    simpa using hvalue

theorem means_table_iff {T : Type} {reading : Data → T → Prop} {fields : List (String × Data)}
    {m : Message T} (htable : ∀ s, ¬ reading (.table fields) s) :
    Means reading (.table fields) m ↔ ∃ head next, HasText reading fields "messageText" head ∧
      HasNext reading fields next ∧ m = .chain head next := by
  constructor
  · intro h
    cases h with
    | text hs => exact absurd hs (htable _)
    | single hhead hnext => exact ⟨_, _, hhead, .inl ⟨hnext, rfl⟩, rfl⟩
    | explained hhead hnext hitems => exact ⟨_, _, hhead, .inr ⟨_, hnext, hitems⟩, rfl⟩
  · rintro ⟨head, next, hhead, ⟨hnext, rfl⟩ | ⟨items, hnext, hitems⟩, rfl⟩
    · exact .single hhead hnext
    · exact .explained hhead hnext hitems

theorem message_table_eq_ok_iff {fields : List (String × Data)} {m : Message Torn} :
    message (.table fields) = .ok m ↔ ∃ head next,
      HasText Spells fields "messageText" head ∧ nextField fields = .ok next ∧
        m = .chain head next := by
  simp only [← hasText_iff]
  unfold message
  split
  · rename_i head hhead
    constructor
    · intro h
      obtain ⟨next, hnext, h⟩ := exists_of_bind_eq_ok h
      exact ⟨head, next, hhead, hnext, (Except.ok.inj h).symm⟩
    · rintro ⟨other, next, hother, hnext, rfl⟩
      obtain rfl := Option.some.inj (hhead.symm.trans hother)
      rw [hnext]
      rfl
  · rename_i hnone
    refine iff_of_false (by simp) ?_
    rintro ⟨head, next, hhead, -⟩
    exact absurd (hnone.symm.trans hhead) (by simp)

/-- **A value is read as the message it means**, and as none if it means none. -/
theorem message_eq_ok_iff (value : Data) (m : Message Torn) :
    message value = .ok m ↔ Means Spells value m := by
  -- the items of a list are read under a table, so they are told of along with the list itself
  suffices h : (∀ m, message value = .ok m ↔ Means Spells value m) ∧ ∀ items, value = .list items →
      ∀ item ∈ items, ∀ m, message item = .ok m ↔ Means Spells item m from h.1 m
  have hother : ∀ {v : Data}, message v = .error .messageShape → (∀ m, ¬ Means Spells v m) →
      (∀ items, v ≠ .list items) → (∀ m, message v = .ok m ↔ Means Spells v m) ∧
        ∀ items, v = .list items → ∀ item ∈ items, ∀ m,
          message item = .ok m ↔ Means Spells item m := by
    intro v hv hnone hlist
    refine ⟨fun m => iff_of_false (fun h => ?_) (hnone m), fun items h => absurd h (hlist items)⟩
    rw [hv] at h
    exact absurd h (by simp)
  clear m
  induction value using Data.parts_induction with
  | null => exact hother rfl nofun nofun
  | bool b => exact hother rfl nofun nofun
  | int n => exact hother rfl nofun nofun
  | float x => exact hother rfl nofun nofun
  | moment moment => exact hother rfl nofun nofun
  | text s =>
    refine ⟨fun m => ⟨fun h => ?_, fun h => ?_⟩, nofun⟩
    · obtain rfl := Except.ok.inj h
      exact .text (.text s)
    · obtain ⟨⟨⟩⟩ := h
      rfl
  | torn pieces =>
    refine ⟨fun m => ⟨fun h => ?_, fun h => ?_⟩, nofun⟩
    · obtain rfl := Except.ok.inj h
      exact .text (.torn pieces)
    · obtain ⟨⟨⟩⟩ := h
      rfl
  | list items ih =>
    refine ⟨fun m => iff_of_false nofun nofun, ?_⟩
    rintro others hothers item hitem
    rw [← Data.list.inj hothers] at hitem
    exact (ih item hitem).1
  | table fields ih =>
    refine ⟨fun m => ?_, nofun⟩
    have hnext := fun next =>
      @nextField_eq_ok_iff fields next fun field hfield => (ih field hfield).2
    rw [message_table_eq_ok_iff, means_table_iff fun _ h => nomatch h]
    simp only [hnext]

/-! ### What is shown of a message -/

/-- What a table has under `next` are the same values in both readings. -/
theorem HasNext.exists_items {fields : List (String × Data)} {next : List Message}
    {torn : List (Message Torn)} (h : HasNext Shows fields next)
    (htorn : HasNext Spells fields torn) :
    ∃ items, List.Forall₂ StandsFor items next ∧ List.Forall₂ (Means Spells) items torn := by
  -- a list that counts as nothing is empty
  have hempty : ∀ {items}, (∀ value ∈ Data.field? fields "next", CountsAsNothing value) →
      Data.field? fields "next" = some (.list items) → items = [] := by
    intro items hnothing hitems
    cases hnothing _ hitems
    rfl
  rcases h with ⟨hnext, rfl⟩ | ⟨items, hitems, hnext⟩
  · rcases htorn with ⟨-, rfl⟩ | ⟨items, hitems, htorn⟩
    · exact ⟨[], .nil, .nil⟩
    · obtain rfl := hempty hnext hitems
      exact ⟨[], .nil, htorn⟩
  · rcases htorn with ⟨hnothing, rfl⟩ | ⟨others, hothers, htorn⟩
    · obtain rfl := hempty hnothing hitems
      exact ⟨[], hnext, .nil⟩
    · obtain rfl := Data.list.inj (Option.some.inj (hitems.symm.trans hothers))
      exact ⟨items, hnext, htorn⟩

mutual

/-- **What is shown of a message** is the message in the reading by what is shown of its texts. -/
theorem StandsFor.eq_reword (m : Message) {value : Data} {torn : Message Torn}
    (h : StandsFor value m) (htorn : Means Spells value torn) : m = torn.reword shownPieces := by
  cases m with
  | text s =>
    cases h with
    | text hs =>
      cases htorn with
      | text hpieces => rw [hs.eq_shownPieces hpieces, Message.reword]
      | single => cases hs
      | explained => cases hs
  | chain head next =>
    obtain ⟨fields, rfl⟩ : ∃ fields, value = .table fields := by
      cases h <;> exact ⟨_, rfl⟩
    obtain ⟨_, _, ⟨text, htext, hhead⟩, hnext, hm⟩ :=
      (means_table_iff fun _ hs => nomatch hs).mp h
    obtain ⟨pieces, others, ⟨other, hother, hpieces⟩, hothers, rfl⟩ :=
      (means_table_iff fun _ hs => nomatch hs).mp htorn
    obtain ⟨rfl, rfl⟩ := Message.chain.inj hm
    obtain rfl := Option.some.inj (htext.symm.trans hother)
    obtain ⟨items, hitems, htornItems⟩ := hnext.exists_items hothers
    rw [Message.reword, hhead.eq_shownPieces hpieces,
      forall₂_eq_rewordAll next hitems htornItems]

theorem forall₂_eq_rewordAll (ms : List Message) {items : List Data} {torn : List (Message Torn)}
    (h : List.Forall₂ StandsFor items ms) (htorn : List.Forall₂ (Means Spells) items torn) :
    ms = Message.rewordAll shownPieces torn := by
  cases ms with
  | nil =>
    cases h
    cases htorn
    rfl
  | cons m ms =>
    cases h with
    | cons hm hms =>
      cases htorn with
      | cons hmtorn hmstorn =>
        rw [Message.rewordAll, ← StandsFor.eq_reword m hm hmtorn,
          ← forall₂_eq_rewordAll ms hms hmstorn]

end

/-! ## Fields -/

variable {directory : Location} {fields : List (String × Data)} {name : String}

/-- A record that names no file. -/
def NoFile (fields : List (String × Data)) : Prop :=
  Data.field? fields "file" = none ∨ Data.field? fields "file" = some .null

/-- A field with a number that is not negative. -/
def HasNumber (fields : List (String × Data)) (name : String) : Prop :=
  ∃ n : Nat, Data.field? fields name = some (.int n)

/-- The fields of a record. What else a table has does not matter. -/
structure IsRecord (directory : Location) (fields : List (String × Data)) : Prop where
  file : NoFile fields ∨ ∃ pieces, HasText Spells fields "file" pieces ∧ Path.Nameable pieces ∧
    Path.CanResolve directory (shownPieces pieces)
  message : ∃ value m, Data.field? fields "message" = some value ∧ Means Spells value m
  line : HasNumber fields "line" ∨ (Data.field? fields "line" = none ∧ NoFile fields)
  code : HasNumber fields "code"
  column : HasNumber fields "column" ∨ Data.field? fields "column" = none

/-- The category that a record tells of: the text of the field, or what another value in it is
written as. A category that is missing is `error`. -/
inductive TellsCategory (fields : List (String × Data)) : Torn → Prop
  | missing (h : Data.field? fields "category" = none) : TellsCategory fields (piecesOf "error")
  | text {pieces : Torn} (h : HasText Spells fields "category" pieces) : TellsCategory fields pieces
  | written {value : Data} (h : Data.field? fields "category" = some value)
      (htext : ∀ pieces, ¬ Spells value pieces) : TellsCategory fields (piecesOf value.display)

/-- The diagnostic that a record tells of. A line or column that is missing is zero, and the message
is a plain text if nothing explains it. -/
structure Tells (directory : Location) (fields : List (String × Data)) (d : Diagnostic Torn) :
    Prop where
  file : (NoFile fields ∧ d.file = none) ∨ ∃ pieces file, HasText Spells fields "file" pieces ∧
    Path.Nameable pieces ∧ Path.LeadsTo directory pieces file ∧ d.file = some file
  message : ∃ value m, Data.field? fields "message" = some value ∧ Means Spells value m ∧
    d.message = rootMessage m
  line : (∃ n : Nat, Data.field? fields "line" = some (.int n) ∧ d.line = n) ∨
    (Data.field? fields "line" = none ∧ NoFile fields ∧ d.line = 0)
  code : ∃ n : Nat, Data.field? fields "code" = some (.int n) ∧ d.code = n
  column : (∃ n : Nat, Data.field? fields "column" = some (.int n) ∧ d.column = n) ∨
    (Data.field? fields "column" = none ∧ d.column = 0)
  category : TellsCategory fields d.category

/-- A record has no file, or a text for it. -/
theorem not_noFile_of_hasText {pieces : Torn} (h : HasText Spells fields "file" pieces) :
    ¬ NoFile fields := by
  obtain ⟨value, hvalue, hpieces⟩ := h
  rintro (hno | hno)
  · exact absurd (hvalue.symm.trans hno) (by simp)
  · obtain rfl := Option.some.inj (hvalue.symm.trans hno)
    cases hpieces

theorem fileField_eq_ok_iff {file : Option Torn} :
    fileField fields = .ok file ↔ (NoFile fields ∧ file = none) ∨
      ∃ pieces, HasText Spells fields "file" pieces ∧ file = some pieces := by
  constructor
  · intro h
    unfold fileField at h
    split at h
    · rename_i hfield
      exact .inl ⟨.inl hfield, (Except.ok.inj h).symm⟩
    · rename_i hfield
      exact .inl ⟨.inr hfield, (Except.ok.inj h).symm⟩
    · rename_i value _ hfield
      split at h
      · rename_i pieces hpieces
        exact .inr ⟨pieces, ⟨value, hfield, pieces?_eq_some_iff.mp hpieces⟩,
          (Except.ok.inj h).symm⟩
      · exact absurd h (by simp)
  · rintro (⟨hno | hno, rfl⟩ | ⟨pieces, hpieces, rfl⟩)
    · rw [fileField, hno]
    · rw [fileField, hno]
    · have hsome := not_noFile_of_hasText hpieces
      obtain ⟨value, hvalue, hspells⟩ := hpieces
      unfold fileField
      split
      · exact absurd (.inl ‹_›) hsome
      · exact absurd (.inr ‹_›) hsome
      · rename_i found hfound
        obtain rfl := Option.some.inj (hvalue.symm.trans hfound)
        rw [pieces?_eq_some_iff.mpr hspells]

theorem numberField_eq_ok_iff {default : Option Int} {n : Int} :
    numberField fields name default = .ok n ↔
      (∃ k : Nat, Data.field? fields name = some (.int k) ∧ n = k) ∨
        (Data.field? fields name = none ∧ default = some n) := by
  unfold numberField
  split
  · rename_i k hfield
    rw [hfield]
    by_cases hneg : k < 0
    · rw [if_pos hneg]
      refine iff_of_false nofun ?_
      rintro (⟨j, hj, -⟩ | ⟨hnone, -⟩)
      · have hk : k = j := Data.int.inj (Option.some.inj hj)
        omega
      · exact nomatch hnone
    · obtain ⟨j, rfl⟩ := Int.eq_ofNat_of_zero_le (Int.not_lt.mp hneg)
      rw [if_neg hneg]
      constructor
      · intro h
        exact .inl ⟨j, rfl, (Except.ok.inj h).symm⟩
      · rintro (⟨i, hi, rfl⟩ | ⟨hnone, -⟩)
        · rw [Data.int.inj (Option.some.inj hi)]
        · exact nomatch hnone
  · rename_i value hint hfield
    refine iff_of_false nofun ?_
    rintro (⟨j, hj, -⟩ | ⟨hnone, -⟩)
    · exact hint j (Option.some.inj (hfield.symm.trans hj))
    · exact nomatch hfield.symm.trans hnone
  · rename_i hfield
    rw [hfield]
    cases default with
    | none => simp
    | some k => simp [eq_comm]

theorem tellsCategory_iff {category : Torn} :
    TellsCategory fields category ↔ category = categoryField fields := by
  constructor
  · intro h
    unfold categoryField
    cases h with
    | missing hnone => rw [hnone]
    | text htext =>
      obtain ⟨value, hvalue, hspells⟩ := htext
      rw [hvalue]
      dsimp only
      rw [pieces?_eq_some_iff.mpr hspells, Option.getD_some]
    | written hvalue htext =>
      rw [hvalue]
      dsimp only
      rw [pieces?_eq_none_iff.mpr htext, Option.getD_none]
  · rintro rfl
    unfold categoryField
    split
    · rename_i hnone
      exact .missing hnone
    · rename_i value hvalue
      cases hpieces : value.pieces? with
      | none => exact .written hvalue (pieces?_eq_none_iff.mp hpieces)
      | some pieces => exact .text ⟨value, hvalue, pieces?_eq_some_iff.mp hpieces⟩

/-! ## Records -/

theorem resolveFile_eq_ok_iff {file place : Option Torn} :
    resolveFile directory file = .ok place ↔ (file = none ∧ place = none) ∨
      ∃ pieces found, file = some pieces ∧ Path.resolveTorn directory pieces = .ok found ∧
        place = some found := by
  cases file with
  | none => simp [resolveFile, eq_comm]
  | some pieces =>
    cases hfound : Path.resolveTorn directory pieces with
    | error fault => simp [resolveFile, hfound, Except.map, Except.mapError]
    | ok found => simp [resolveFile, hfound, Except.map, Except.mapError, eq_comm]

theorem messageField_eq_ok_iff {m : Message Torn} :
    message ((Data.field? fields "message").getD .null) = .ok m ↔
      ∃ value, Data.field? fields "message" = some value ∧ Means Spells value m := by
  cases hfield : Data.field? fields "message" with
  | none => exact iff_of_false nofun nofun
  | some value => simp [message_eq_ok_iff]

/-- A table is read by its fields, one after the other. -/
theorem readTorn_table_eq_ok {d : Diagnostic Torn} :
    readTorn directory (.table fields) = .ok d ↔ ∃ file m,
      fileField fields = .ok file ∧
      message ((Data.field? fields "message").getD .null) = .ok m ∧
      resolveFile directory file = .ok d.file ∧
      numberField fields "line" (if file.isNone then some 0 else none) = .ok d.line ∧
      numberField fields "code" none = .ok d.code ∧
      numberField fields "column" (some 0) = .ok d.column ∧
      d.message = rootMessage m ∧ d.category = categoryField fields := by
  constructor
  · intro h
    obtain ⟨file, hfile, h⟩ := exists_of_bind_eq_ok h
    obtain ⟨m, hm, h⟩ := exists_of_bind_eq_ok h
    obtain ⟨place, hplace, h⟩ := exists_of_bind_eq_ok h
    obtain ⟨line, hline, h⟩ := exists_of_bind_eq_ok h
    obtain ⟨code, hcode, h⟩ := exists_of_bind_eq_ok h
    obtain ⟨column, hcolumn, h⟩ := exists_of_bind_eq_ok h
    obtain rfl := Except.ok.inj h
    exact ⟨file, m, hfile, hm, hplace, hline, hcode, hcolumn, rfl, rfl⟩
  · obtain ⟨place, line, message, code, column, category⟩ := d
    rintro ⟨file, m, hfile, hm, hplace, hline, hcode, hcolumn, rfl, rfl⟩
    unfold readTorn
    dsimp only at hplace hline hcode hcolumn ⊢
    simp only [hfile, hm, hplace, hline, hcode, hcolumn, bind, Except.bind]
    rfl

/-- **A table is read as the diagnostic it tells of**, and as none if it tells of none. -/
theorem readTorn_table_eq_ok_iff {d : Diagnostic Torn} :
    readTorn directory (.table fields) = .ok d ↔ Tells directory fields d := by
  rw [readTorn_table_eq_ok]
  simp only [fileField_eq_ok_iff, messageField_eq_ok_iff, resolveFile_eq_ok_iff,
    numberField_eq_ok_iff, ← tellsCategory_iff, Path.resolveTorn_eq_ok_iff]
  constructor
  · rintro ⟨file, m, hfile, ⟨value, hvalue, hm⟩, hplace, hline, hcode, hcolumn, hmessage, hcategory⟩
    refine ⟨?_, ⟨value, m, hvalue, hm, hmessage⟩, ?_, ?_, ?_, hcategory⟩
    · rcases hplace with ⟨rfl, hd⟩ | ⟨pieces, found, rfl, ⟨hnameable, hleads⟩, hd⟩
      · exact .inl ⟨(hfile.resolve_right nofun).1, hd⟩
      · obtain ⟨other, hother, heq⟩ := hfile.resolve_left nofun
        obtain rfl := Option.some.inj heq
        exact .inr ⟨_, found, hother, hnameable, hleads, hd⟩
    · refine hline.imp_right fun ⟨hnone, hdefault⟩ => ?_
      -- only without a file is there a default
      rcases hfile with ⟨hno, rfl⟩ | ⟨pieces, -, rfl⟩
      · exact ⟨hnone, hno, (Option.some.inj hdefault).symm⟩
      · exact nomatch hdefault
    · exact hcode.resolve_right nofun
    · exact hcolumn.imp_right fun ⟨hnone, hdefault⟩ => ⟨hnone, (Option.some.inj hdefault).symm⟩
  · rintro ⟨hfile, ⟨value, m, hvalue, hm, hmessage⟩, hline, hcode, hcolumn, hcategory⟩
    have hcolumn' := hcolumn.imp_right
      fun (h : Data.field? fields "column" = none ∧ d.column = 0) =>
        (⟨h.1, congrArg some h.2.symm⟩ :
          Data.field? fields "column" = none ∧ some 0 = some d.column)
    rcases hfile with ⟨hno, hd⟩ | ⟨pieces, found, hpieces, hnameable, hleads, hd⟩
    · refine ⟨none, m, .inl ⟨hno, rfl⟩, ⟨value, hvalue, hm⟩, .inl ⟨rfl, hd⟩, ?_, .inl hcode,
        hcolumn', hmessage, hcategory⟩
      exact hline.imp_right fun ⟨hnone, _, hzero⟩ => ⟨hnone, congrArg some hzero.symm⟩
    · refine ⟨some pieces, m, .inr ⟨pieces, hpieces, rfl⟩, ⟨value, hvalue, hm⟩,
        .inr ⟨pieces, found, rfl, ⟨hnameable, hleads⟩, hd⟩, ?_, .inl hcode, hcolumn', hmessage,
        hcategory⟩
      -- with a file, the line is there
      exact .inl (hline.resolve_right fun ⟨_, hno, _⟩ => not_noFile_of_hasText hpieces hno)

/-- What has the fields of a record tells of a diagnostic, and nothing else does. -/
theorem isRecord_iff : IsRecord directory fields ↔ ∃ d, Tells directory fields d := by
  constructor
  · rintro ⟨hfile, ⟨value, m, hvalue, hm⟩, hline, ⟨code, hcode⟩, hcolumn⟩
    have hfile : ∃ place : Option Torn, (NoFile fields ∧ place = none) ∨ ∃ pieces file,
        HasText Spells fields "file" pieces ∧ Path.Nameable pieces ∧
          Path.LeadsTo directory pieces file ∧ place = some file := by
      rcases hfile with hno | ⟨pieces, hpieces, hnameable, hcan⟩
      · exact ⟨none, .inl ⟨hno, rfl⟩⟩
      · exact ⟨_, .inr ⟨pieces, _, hpieces, hnameable, Path.leadsTo_iff.mpr ⟨hcan, rfl⟩, rfl⟩⟩
    have hline : ∃ line : Int, (∃ n : Nat, Data.field? fields "line" = some (.int n) ∧ line = n) ∨
        (Data.field? fields "line" = none ∧ NoFile fields ∧ line = 0) := by
      rcases hline with ⟨n, hn⟩ | ⟨hnone, hno⟩
      · exact ⟨n, .inl ⟨n, hn, rfl⟩⟩
      · exact ⟨0, .inr ⟨hnone, hno, rfl⟩⟩
    have hcolumn : ∃ column : Int,
        (∃ n : Nat, Data.field? fields "column" = some (.int n) ∧ column = n) ∨
          (Data.field? fields "column" = none ∧ column = 0) := by
      rcases hcolumn with ⟨n, hn⟩ | hnone
      · exact ⟨n, .inl ⟨n, hn, rfl⟩⟩
      · exact ⟨0, .inr ⟨hnone, rfl⟩⟩
    obtain ⟨file, hfile⟩ := hfile
    obtain ⟨line, hline⟩ := hline
    obtain ⟨column, hcolumn⟩ := hcolumn
    exact ⟨⟨file, line, rootMessage m, code, column, _⟩, hfile, ⟨value, m, hvalue, hm, rfl⟩, hline,
      ⟨code, hcode, rfl⟩, hcolumn, tellsCategory_iff.mpr rfl⟩
  · rintro ⟨d, h⟩
    refine ⟨?_, ?_, ?_, ?_, ?_⟩
    · exact h.file.imp And.left fun ⟨pieces, file, hpieces, hnameable, hleads, _⟩ =>
        ⟨pieces, hpieces, hnameable, (Path.leadsTo_iff.mp hleads).1⟩
    · obtain ⟨value, m, hvalue, hm, -⟩ := h.message
      exact ⟨value, m, hvalue, hm⟩
    · exact h.line.imp (fun ⟨n, hn, _⟩ => ⟨n, hn⟩) fun ⟨hnone, hno, _⟩ => ⟨hnone, hno⟩
    · obtain ⟨n, hn, -⟩ := h.code
      exact ⟨n, hn⟩
    · exact h.column.imp (fun ⟨n, hn, _⟩ => ⟨n, hn⟩) And.left

/-- A value that is a record. -/
def IsEntry (directory : Location) (item : Data) : Prop :=
  ∃ fields, item = .table fields ∧ IsRecord directory fields

/-- The diagnostic that a value tells of. -/
def TellsOf (directory : Location) (item : Data) (d : Diagnostic Torn) : Prop :=
  ∃ fields, item = .table fields ∧ Tells directory fields d

theorem readTorn_eq_ok_iff {item : Data} {d : Diagnostic Torn} :
    readTorn directory item = .ok d ↔ TellsOf directory item d := by
  constructor
  · intro h
    unfold readTorn at h
    split at h
    · rename_i fields
      exact ⟨fields, rfl, readTorn_table_eq_ok_iff.mp h⟩
    · exact nomatch h
  · rintro ⟨fields, rfl, h⟩
    exact readTorn_table_eq_ok_iff.mpr h

/-- **A value is read exactly if it is a record.** -/
theorem isEntry_iff {item : Data} :
    IsEntry directory item ↔ ∃ d, readTorn directory item = .ok d := by
  simp only [readTorn_eq_ok_iff, IsEntry, TellsOf, isRecord_iff]
  constructor
  · rintro ⟨fields, rfl, d, h⟩
    exact ⟨d, fields, rfl, h⟩
  · rintro ⟨d, fields, rfl, h⟩
    exact ⟨fields, rfl, d, h⟩

/-! ## Messages that were written -/

/-- What is written for a message means it, and no other one. -/
theorem means_ofMessageBy_iff {m other : Message Torn} :
    Means Spells (ofMessageBy Data.ofPieces m) other ↔ other = m := by
  rw [← message_eq_ok_iff, message_ofPieces]
  exact ⟨fun h => (Except.ok.inj h).symm, fun h => h ▸ rfl⟩

/-- A message that is explained is given back as it was written. -/
theorem Tells.message_explained {d : Diagnostic Torn} (h : Tells directory fields d) {head : Torn}
    {next : List (Message Torn)} (hnext : next ≠ [])
    (hmessage : Data.field? fields "message" =
      some (ofMessageBy Data.ofPieces (.chain head next))) : d.message = .chain head next := by
  obtain ⟨value, m, hvalue, hm, hd⟩ := h.message
  obtain rfl := Option.some.inj (hmessage.symm.trans hvalue)
  obtain rfl := means_ofMessageBy_iff.mp hm
  rw [hd, rootMessage_eq]
  rintro other heq
  exact hnext (Message.chain.inj heq).2

/-- A table under which nothing stands is a plain text. -/
theorem Tells.message_single {d : Diagnostic Torn} (h : Tells directory fields d)
    {inner : List (String × Data)} {head : Torn}
    (hmessage : Data.field? fields "message" = some (.table inner))
    (hhead : HasText Spells inner "messageText" head)
    (hnext : ∀ value ∈ Data.field? inner "next", CountsAsNothing value) :
    d.message = .text head := by
  obtain ⟨value, m, hvalue, hm, hd⟩ := h.message
  obtain rfl := Option.some.inj (hmessage.symm.trans hvalue)
  have hsingle := (message_eq_ok_iff _ _).mpr (.single hhead hnext)
  obtain rfl := Except.ok.inj (((message_eq_ok_iff _ _).mpr hm).symm.trans hsingle)
  exact hd

end ExpectedDiagnostics.Record
