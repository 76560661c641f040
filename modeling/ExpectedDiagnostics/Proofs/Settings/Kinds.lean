import ExpectedDiagnostics.Proofs.Data
import ExpectedDiagnostics.Proofs.Settings.Checks

/-!
# Kinds of values

Which values a setting should have (`WellTyped`), and which others get through (`Slips`): those that
no check looks at, those that can be compared with a number without being one that is asked for, and
those that have items without being lists.

Main results:

* `passes_iff` — what gets through are exactly the values that are well typed and those that slip.
* `wellTyped_default` — the defaults are well typed.
* `wellTyped_of_hasKind` — what slips is not of the kind of its setting.
-/

namespace ExpectedDiagnostics.Settings

open Data (names)

/-! ## Values that are asked for -/

/-- The value is of the kind of its setting, and within its range. -/
def WellTyped : Setting → Data → Prop
  | .compilerConfig, value => value = .null ∨ ∃ path, value = .text path
  | .unexpected, value => ∃ b, value = .bool b
  | .style, value => ∃ style : Report.Style, value = .text style.name
  | .command, value =>
    ∃ command : String, value = .text command ∧ ∃ c ∈ command.toList, Text.isBlank c = false
  | .timeout, value => value = .null ∨ ∃ seconds : Int, value = .int seconds ∧ 1 ≤ seconds
  | .extensions, value => ∃ suffixes : List String, suffixes ≠ [] ∧
      value = .list (suffixes.map .text) ∧ ∀ suffix ∈ suffixes, suffix.toList.head? = some '.'
  | .excluded, value => ∃ directories : List String, value = .list (directories.map .text)
  | .compilerOptions, value => ∃ fields, value = .table fields
  | .verbosity, value => ∃ verbosity : Verbosity, value = .text verbosity.name

/-- The value is of the kind of its setting, whatever its range. -/
def HasKind : Setting → Data → Prop
  | .compilerConfig, value | .style, value | .command, value | .verbosity, value =>
    ∃ s, value = .text s
  | .unexpected, value => ∃ b, value = .bool b
  | .timeout, value => ∃ seconds, value = .int seconds
  | .extensions, value | .excluded, value => ∃ items : List String, value = .list (items.map .text)
  | .compilerOptions, value => ∃ fields, value = .table fields

theorem wellTyped_default (x : Setting) : WellTyped x x.default := by
  cases x with
  | compilerConfig => exact .inl rfl
  | unexpected => exact ⟨false, rfl⟩
  | style => exact ⟨.rich, rfl⟩
  | command => exact ⟨"tsc", rfl, 't', by decide, rfl⟩
  | timeout => exact .inl rfl
  | extensions => exact ⟨[".ts", ".tsx", ".mts", ".cts"], by decide, rfl, by decide⟩
  | excluded => exact ⟨["node_modules"], rfl⟩
  | compilerOptions => exact ⟨Setting.strictOptions, rfl⟩
  | verbosity => exact ⟨.normal, rfl⟩

/-! ## Values that get through -/

/-- The value gets through although it is not of the kind of its setting. -/
inductive Slips : Setting → Data → Prop
  /-- Nobody looks at the value. -/
  | compilerConfig {value : Data} (h : ¬ WellTyped .compilerConfig value) :
      Slips .compilerConfig value
  | unexpected {value : Data} (h : ¬ WellTyped .unexpected value) : Slips .unexpected value
  | excluded {value : Data} (h : ¬ WellTyped .excluded value) : Slips .excluded value
  /-- A truth value that counts as one. -/
  | truth : Slips .timeout (.bool true)
  /-- A number of another sort that is not below one; what is no number is not below one either. -/
  | fraction {x : Float} (h : ¬ x < 1.0) : Slips .timeout (.float x)
  /-- A text whose characters count as suffixes. -/
  | dots {s : String} (hne : s ≠ "") (h : ∀ c ∈ s.toList, c = '.') : Slips .extensions (.text s)
  /-- A table whose names count as suffixes. -/
  | fields {fields : List (String × Data)} (hne : fields ≠ [])
      (h : ∀ name ∈ names fields, name.toList.head? = some '.') : Slips .extensions (.table fields)

theorem items?_eq_texts_iff {value : Data} {texts : List String} :
    items? value = some (texts.map .text) ↔ value = .list (texts.map .text) ∨
      (∃ s, value = .text s ∧ texts = s.toList.map .singleton) ∨
        ∃ fields, value = .table fields ∧ texts = names fields := by
  have hinj : Function.Injective (List.map Data.text) :=
    List.map_injective_iff.mpr fun a b h => Data.text.inj h
  cases value with
  | list items => simp [items?]
  | text s =>
    have hitems : items? (.text s) = some ((s.toList.map String.singleton).map .text) := by
      simp [items?]
    rw [hitems, Option.some.injEq, hinj.eq_iff]
    simp [eq_comm]
  | table fields =>
    have hitems : items? (.table fields) = some ((names fields).map .text) := by
      simp [items?, names]
    rw [hitems, Option.some.injEq, hinj.eq_iff]
    simp [eq_comm]
  | _ => simp [items?]

theorem passes_timeout_iff {value : Data} :
    Passes .timeout value ↔ WellTyped .timeout value ∨ Slips .timeout value := by
  constructor
  · rintro (rfl | h)
    · exact .inl (.inl rfl)
    -- only truth values and numbers can be compared at all
    · cases value with
      | bool b =>
        cases b with
        | true => exact .inr .truth
        | false => cases h
      | int seconds =>
        have hle : ¬ seconds < 1 := by simpa [isBelowOne?] using h
        exact .inl (.inr ⟨seconds, rfl, Int.not_lt.mp hle⟩)
      | float x => exact .inr (.fraction (by simpa [isBelowOne?] using h))
      | _ => cases h
  · rintro (hwell | hslips)
    · rcases hwell with rfl | ⟨seconds, rfl, hle⟩
      · exact .inl rfl
      · exact .inr (by simpa [isBelowOne?] using hle)
    · cases hslips with
      | truth => exact .inr rfl
      | fraction h => exact .inr (by simpa [isBelowOne?] using h)

theorem passes_extensions_iff {value : Data} :
    Passes .extensions value ↔ WellTyped .extensions value ∨ Slips .extensions value := by
  have hsingleton (s : String) : (∀ suffix ∈ s.toList.map String.singleton,
      suffix.toList.head? = some '.') ↔ ∀ c ∈ s.toList, c = '.' := by
    simp
  constructor
  · rintro ⟨suffixes, hne, hitems, hall⟩
    -- a list, a text or a table: all three have items
    rcases items?_eq_texts_iff.mp hitems with rfl | ⟨s, rfl, rfl⟩ | ⟨fields, rfl, rfl⟩
    · exact .inl ⟨suffixes, hne, rfl, hall⟩
    · refine .inr (.dots ?_ ((hsingleton s).mp hall))
      rintro rfl
      exact hne rfl
    · refine .inr (.fields ?_ hall)
      rintro rfl
      exact hne rfl
  · rintro (hwell | hslips)
    · obtain ⟨suffixes, hne, rfl, hall⟩ := hwell
      exact ⟨suffixes, hne, rfl, hall⟩
    · cases hslips with
      | @dots s hne h =>
        refine ⟨s.toList.map String.singleton, ?_,
          items?_eq_texts_iff.mpr (.inr (.inl ⟨s, rfl, rfl⟩)), (hsingleton s).mpr h⟩
        simpa using hne
      | @fields fields hne h =>
        refine ⟨names fields, ?_, items?_eq_texts_iff.mpr (.inr (.inr ⟨fields, rfl, rfl⟩)), h⟩
        simpa [names] using hne

/-- What gets through. Compiler options have no check of their own, but they have to be a table. -/
theorem passes_iff {x : Setting} {value : Data} :
    (Passes x value ∧ (x = .compilerOptions → ∃ fields, value = .table fields)) ↔
      WellTyped x value ∨ Slips x value := by
  cases x with
  | timeout => simpa using passes_timeout_iff
  | extensions => simpa using passes_extensions_iff
  | compilerConfig => exact iff_of_true ⟨trivial, nofun⟩ ((em _).imp_right .compilerConfig)
  | unexpected => exact iff_of_true ⟨trivial, nofun⟩ ((em _).imp_right .unexpected)
  | excluded => exact iff_of_true ⟨trivial, nofun⟩ ((em _).imp_right .excluded)
  | compilerOptions => exact ⟨fun h => .inl (h.2 rfl), fun h => ⟨trivial, fun _ => h.elim id nofun⟩⟩
  | style | command | verbosity => exact ⟨fun h => .inl h.1, fun h => ⟨h.elim id nofun, nofun⟩⟩

theorem passes_default (x : Setting) : Passes x x.default :=
  (passes_iff.mpr (.inl (wellTyped_default x))).1

/-- A value of the right kind does not slip: only its range is left to check. -/
theorem wellTyped_of_hasKind {x : Setting} {value : Data} (hkind : HasKind x value)
    (h : WellTyped x value ∨ Slips x value) : WellTyped x value := by
  refine h.elim id fun hslips => ?_
  cases hslips with
  | compilerConfig => exact .inr hkind
  | unexpected | excluded => exact hkind
  | _ =>
    obtain ⟨_, heq⟩ := hkind
    cases heq

end ExpectedDiagnostics.Settings
