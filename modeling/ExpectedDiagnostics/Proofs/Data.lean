import ExpectedDiagnostics.Data
import ExpectedDiagnostics.Proofs.Text.Torn
import Mathlib.Data.List.Nodup

/-!
# Values and fields of tables

Values are told by induction over their parts (`parts_induction`).

What a table holds after fields have been set. A field that is set has its new value and all others
have their old ones (`field?_setField`); of several changes to one field the last one counts
(`field?_update`). Setting fields makes no name come twice (`nodup_names_update`).
-/

namespace ExpectedDiagnostics.Data

/-- An induction over the parts of a value: the items of a list and the values of a table's
fields. -/
theorem parts_induction {P : Data → Prop} (null : P .null) (bool : ∀ b, P (.bool b))
    (int : ∀ n, P (.int n)) (float : ∀ x, P (.float x)) (text : ∀ s, P (.text s))
    (torn : ∀ pieces, P (.torn pieces)) (moment : ∀ m, P (.moment m))
    (list : ∀ items, (∀ item ∈ items, P item) → P (.list items))
    (table : ∀ fields, (∀ field ∈ fields, P field.2) → P (.table fields)) : ∀ v, P v
  | .null => null
  | .bool b => bool b
  | .int n => int n
  | .float x => float x
  | .text s => text s
  | .torn pieces => torn pieces
  | .moment m => moment m
  | .list items => list items fun item _ =>
    parts_induction null bool int float text torn moment list table item
  | .table fields => table fields fun field hfield =>
    have hsize : sizeOf field.2 < sizeOf fields := by
      have hlt := List.sizeOf_lt_of_mem hfield
      obtain ⟨name, value⟩ := field
      rw [Prod.mk.sizeOf_spec] at hlt
      show sizeOf value < sizeOf fields
      omega
    parts_induction null bool int float text torn moment list table field.2

/-! ## Texts -/

/-- A text that is read without halves is a whole one. -/
theorem ofPieces_piecesOf (s : String) : ofPieces (Text.piecesOf s) = .text s := by
  have hwhole : (Text.piecesOf s).any Text.Piece.isHalf = false := by
    rw [Text.piecesOf, List.any_map, List.any_eq_false]
    exact fun c _ => Bool.false_ne_true
  rw [ofPieces, hwhole, Text.shownPieces_piecesOf]
  rfl

/-- The value of a text is the text. -/
theorem pieces?_ofPieces (pieces : Text.Torn) : (ofPieces pieces).pieces? = some pieces := by
  unfold ofPieces
  split
  · rfl
  · rename_i hwhole
    refine congrArg some (Text.piecesOf_shownPieces fun n hn => hwhole ?_)
    exact List.any_eq_true.mpr ⟨_, hn, rfl⟩

/-- The names of the fields of a table. -/
def names (fields : List (String × Data)) : List String :=
  fields.map Prod.fst

theorem names_append (fields others : List (String × Data)) :
    names (fields ++ others) = names fields ++ names others :=
  List.map_append

theorem any_eq_true_iff {fields : List (String × Data)} {name : String} :
    fields.any (·.1 == name) = true ↔ name ∈ names fields := by
  simp [names]

theorem field?_isSome_iff {fields : List (String × Data)} {name : String} :
    (field? fields name).isSome ↔ name ∈ names fields := by
  unfold field?
  simp [names, List.lookup_isSome_iff]

theorem mem_of_field? {fields : List (String × Data)} {name : String} {value : Data}
    (h : field? fields name = some value) : (name, value) ∈ fields := by
  obtain ⟨before, after, rfl, -⟩ := List.lookup_eq_some_iff.mp h
  exact List.mem_append_right before List.mem_cons_self

/-! ## The last value for a name -/

/-- The last value for a name among fields of which several may have it. -/
def last? : List (String × Data) → String → Option Data
  | [], _ => none
  | f :: fields, name => (last? fields name).or (if f.1 = name then some f.2 else none)

theorem last?_append (fields others : List (String × Data)) (name : String) :
    last? (fields ++ others) name = (last? others name).or (last? fields name) := by
  induction fields with
  | nil => exact Option.or_none.symm
  | cons f fields ih => rw [List.cons_append, last?, last?, ih, Option.or_assoc]

theorem last?_isSome_iff {fields : List (String × Data)} {name : String} :
    (last? fields name).isSome ↔ name ∈ names fields := by
  induction fields with
  | nil => simp [last?, names]
  | cons f fields ih =>
    have hcons : name ∈ names (f :: fields) ↔ name = f.1 ∨ name ∈ names fields := List.mem_cons
    rw [last?, Option.isSome_or, Bool.or_eq_true, ih, hcons, or_comm]
    refine or_congr_left ?_
    by_cases h : f.1 = name
    · simp [h]
    · simp [h, Ne.symm h]

theorem mem_of_last? {fields : List (String × Data)} {name : String} {value : Data}
    (h : last? fields name = some value) : (name, value) ∈ fields := by
  induction fields with
  | nil => cases h
  | cons f fields ih =>
    rw [last?, Option.or_eq_some_iff] at h
    rcases h with hrest | ⟨-, hf⟩
    · exact List.mem_cons_of_mem _ (ih hrest)
    · split at hf
      · rename_i hname
        cases hf
        exact List.mem_cons.mpr (.inl (Prod.ext hname.symm rfl))
      · cases hf

theorem last?_filter_cons (keep : Data → Bool) (f : String × Data) (fields : List (String × Data))
    (name : String) :
    last? ((f :: fields).filter (keep ·.2)) name = (last? (fields.filter (keep ·.2)) name).or
      (if f.1 = name ∧ keep f.2 = true then some f.2 else none) := by
  cases hkeep : keep f.2 with
  | true => rw [List.filter_cons_of_pos (by simpa using hkeep), last?]; simp
  | false => rw [List.filter_cons_of_neg (by simp [hkeep])]; simp

/-! ## One field -/

theorem names_setField (fields : List (String × Data)) (name : String) (value : Data) :
    names (setField fields name value) =
      if name ∈ names fields then names fields else names fields ++ [name] := by
  unfold setField
  by_cases h : name ∈ names fields
  · rw [if_pos (any_eq_true_iff.mpr h), if_pos h]
    unfold names
    rw [List.map_map]
    refine List.map_congr_left fun f _ => ?_
    by_cases hf : f.1 = name <;> simp [hf]
  · rw [if_neg (mt any_eq_true_iff.mp h), if_neg h, names_append]
    rfl

theorem nodup_names_setField {fields : List (String × Data)} (h : (names fields).Nodup)
    (name : String) (value : Data) : (names (setField fields name value)).Nodup := by
  rw [names_setField]
  split
  · exact h
  · rename_i hnew
    exact List.nodup_append.mpr ⟨h, List.nodup_singleton name, fun a ha b hb heq =>
      hnew (List.mem_singleton.mp hb ▸ heq ▸ ha)⟩

/-- Putting a value in the place of another one leaves the fields with other names alone. -/
theorem lookup_replaced (fields : List (String × Data)) (name other : String) (value : Data) :
    (fields.map fun f => if f.1 == name then (name, value) else f).lookup other =
      if other = name then (fields.lookup other).map fun _ => value else fields.lookup other := by
  induction fields with
  | nil => simp
  | cons f fields ih =>
    rw [List.map_cons, List.lookup_cons, List.lookup_cons, ih]
    -- whether the first field is replaced, and whether it is the one that is looked for
    by_cases hf : f.1 = name <;> by_cases ho : other = name
    · subst hf ho
      simp
    · subst hf
      simp [beq_eq_false_iff_ne.mpr ho, ho]
    · subst ho
      simp [beq_eq_false_iff_ne.mpr hf, beq_eq_false_iff_ne.mpr (Ne.symm hf)]
    · simp [beq_eq_false_iff_ne.mpr hf, ho]

theorem field?_setField (fields : List (String × Data)) (name other : String) (value : Data) :
    field? (setField fields name value) other =
      if other = name then some value else field? fields other := by
  unfold setField field?
  by_cases h : name ∈ names fields
  · rw [if_pos (any_eq_true_iff.mpr h), lookup_replaced]
    split
    · rename_i heq
      -- the field is there, so there is a value to replace
      obtain ⟨old, hold⟩ := Option.isSome_iff_exists.mp (field?_isSome_iff.mpr h)
      rw [heq, show fields.lookup name = some old from hold, Option.map_some]
    · rfl
  · have hnone : fields.lookup name = none :=
      Option.not_isSome_iff_eq_none.mp (mt field?_isSome_iff.mp h)
    rw [if_neg (mt any_eq_true_iff.mp h), List.lookup_append, List.lookup_cons, List.lookup_nil]
    by_cases ho : other = name
    · rw [if_pos ho, ho, hnone, beq_self_eq_true]
      rfl
    · rw [if_neg ho, beq_eq_false_iff_ne.mpr ho, Option.or_none]

/-- Among the fields with values of some kind, putting a value of that kind in the place of another
one leaves the fields with other names alone as well. -/
theorem last?_filter_replaced {keep : Data → Bool} {value : Data} (h : keep value = true)
    (fields : List (String × Data)) (name other : String) :
    last? ((fields.map fun f => if f.1 == name then (name, value) else f).filter (keep ·.2)) other =
      if other = name then (last? fields other).map fun _ => value
      else last? (fields.filter (keep ·.2)) other := by
  induction fields with
  | nil => simp [last?]
  | cons f fields ih =>
    rw [List.map_cons, last?_filter_cons, last?_filter_cons, ih, last?]
    -- the same four cases; what is put in is kept, whether or not the old value was
    by_cases hf : f.1 = name <;> by_cases ho : other = name
    · subst hf ho
      cases last? fields f.1 <;> simp [h]
    · subst hf
      simp [h, ho, Ne.symm ho]
    · subst ho
      simp [hf]
    · simp [hf, ho]

theorem last?_filter_setField {keep : Data → Bool} {value : Data} (h : keep value = true)
    (fields : List (String × Data)) (name other : String) :
    last? ((setField fields name value).filter (keep ·.2)) other =
      if other = name then some value else last? (fields.filter (keep ·.2)) other := by
  unfold setField
  by_cases hname : name ∈ names fields
  · rw [if_pos (any_eq_true_iff.mpr hname), last?_filter_replaced h]
    split
    · rename_i heq
      -- again there is a value to replace
      obtain ⟨old, hold⟩ := Option.isSome_iff_exists.mp (last?_isSome_iff.mpr hname)
      rw [heq, hold, Option.map_some]
    · rfl
  · -- a new field comes last, so it counts
    have hlast : last? ([(name, value)].filter (keep ·.2)) other =
        if other = name then some value else none := by
      rw [last?_filter_cons]
      simp [h, last?, eq_comm]
    rw [if_neg (mt any_eq_true_iff.mp hname), List.filter_append, last?_append, hlast]
    split <;> rfl

/-! ## Several fields -/

theorem update_cons (fields : List (String × Data)) (f : String × Data)
    (changes : List (String × Data)) :
    update fields (f :: changes) = update (setField fields f.1 f.2) changes := rfl

theorem nodup_names_update {fields : List (String × Data)} (h : (names fields).Nodup)
    (changes : List (String × Data)) : (names (update fields changes)).Nodup := by
  induction changes generalizing fields with
  | nil => exact h
  | cons f changes ih => exact ih (nodup_names_setField h f.1 f.2)

theorem field?_update (fields changes : List (String × Data)) (name : String) :
    field? (update fields changes) name = (last? changes name).or (field? fields name) := by
  induction changes generalizing fields with
  | nil => rfl
  | cons f changes ih =>
    rw [update_cons, ih, field?_setField, last?, Option.or_assoc]
    by_cases h : f.1 = name
    · rw [if_pos h, if_pos h.symm, Option.some_or]
    · rw [if_neg h, if_neg (Ne.symm h), Option.none_or]

end ExpectedDiagnostics.Data
