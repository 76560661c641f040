import ExpectedDiagnostics.Proofs.Except
import ExpectedDiagnostics.Proofs.Text.Tidy
import ExpectedDiagnostics.Settings

/-!
# Checks of settings

What the checks of the single settings let through. A value that is let through is kept as it was
given (`value_of_ofValues`), and there are settings with certain values exactly if every value
passes the check of its setting (`exists_ofValues_iff`). A value that is not let through is a
problem with the settings (`Fault.isUnder_problem`).
-/

namespace ExpectedDiagnostics

/-- Looking for a name finds what has it, if it finds everything under its own name. -/
theorem find?_name_eq_some_iff {α : Type} {all : List α} {nameOf : α → String}
    (hfound : ∀ a, all.find? (nameOf · == nameOf a) = some a) {name : String} {a : α} :
    all.find? (nameOf · == name) = some a ↔ name = nameOf a := by
  constructor
  · intro h
    exact (beq_iff_eq.mp (List.find?_some h :)).symm
  · rintro rfl
    exact hfound a

theorem Report.Style.ofName?_eq_some_iff {name : String} {style : Style} :
    ofName? name = some style ↔ name = style.name :=
  find?_name_eq_some_iff fun style => by cases style <;> decide

theorem Verbosity.ofName?_eq_some_iff {name : String} {verbosity : Verbosity} :
    ofName? name = some verbosity ↔ name = verbosity.name :=
  find?_name_eq_some_iff fun verbosity => by cases verbosity <;> decide

theorem Setting.ofName?_eq_some_iff {name : String} {x : Setting} :
    ofName? name = some x ↔ name = x.name :=
  find?_name_eq_some_iff fun x => by cases x <;> decide

theorem Setting.ofName?_eq_none_iff {name : String} :
    ofName? name = none ↔ ∀ x : Setting, name ≠ x.name := by
  rw [Option.eq_none_iff_forall_ne_some]
  exact forall_congr' fun x => not_congr ofName?_eq_some_iff

theorem Setting.name_inj {x y : Setting} : x.name = y.name ↔ x = y := by
  refine ⟨fun h => ?_, congrArg name⟩
  exact Option.some.inj ((ofName?_eq_some_iff.mpr rfl).symm.trans (ofName?_eq_some_iff.mpr h))

theorem Setting.mem_all (x : Setting) : x ∈ all := by
  cases x <;> decide

namespace Settings

/-! ## Single checks -/

theorem checkName_eq_ok_iff {α : Type} {x : Setting} {names : List String}
    {ofName? : String → Option α} {value : Data} {a : α} :
    checkName x names ofName? value = .ok a ↔
      ∃ name, value = .text name ∧ ofName? name = some a := by
  cases value with
  | text name => cases h : ofName? name <;> simp [checkName, h]
  | _ => simp [checkName]

theorem checkCommand_eq_ok_iff {value : Data} {command : String} :
    checkCommand value = .ok command ↔
      value = .text command ∧ ∃ c ∈ command.toList, Text.isBlank c = false := by
  have hblank (s : String) : (Text.strip s.toList).isEmpty = false ↔
      ∃ c ∈ s.toList, Text.isBlank c = false := by
    rw [List.isEmpty_eq_false_iff, Ne, Text.strip_eq_nil_iff, Text.AllBlank]
    simp only [not_forall, exists_prop, Bool.not_eq_true]
  cases value with
  | text s =>
    simp only [checkCommand]
    cases h : (Text.strip s.toList).isEmpty with
    | true =>
      refine iff_of_false nofun ?_
      rintro ⟨heq, hsome⟩
      cases heq
      rw [(hblank command).mpr hsome] at h
      cases h
    | false =>
      constructor
      · intro heq
        cases heq
        exact ⟨rfl, (hblank command).mp h⟩
      · rintro ⟨heq, -⟩
        cases heq
        rfl
  | _ => simp [checkCommand]

theorem checkTimeout_eq_ok_iff {value kept : Data} :
    checkTimeout value = .ok kept ↔
      value = kept ∧ (value = .null ∨ isBelowOne? value = some false) := by
  cases value with
  | null => simp [checkTimeout]
  | _ =>
    simp only [checkTimeout]
    split <;> simp_all

theorem checkSuffixes_eq_ok_iff {items : List Data} :
    checkSuffixes items = .ok () ↔ ∃ suffixes : List String,
      items = suffixes.map .text ∧ ∀ suffix ∈ suffixes, suffix.toList.head? = some '.' := by
  induction items with
  | nil => exact iff_of_true rfl ⟨[], rfl, nofun⟩
  | cons item items ih =>
    constructor
    · intro h
      cases item with
      | text s =>
        simp only [checkSuffixes] at h
        split at h
        · rename_i hdot
          obtain ⟨suffixes, rfl, hall⟩ := ih.mp h
          exact ⟨s :: suffixes, rfl, List.forall_mem_cons.mpr ⟨beq_iff_eq.mp hdot, hall⟩⟩
        · cases h
      | _ => cases h
    · rintro ⟨_ | ⟨s, suffixes⟩, heq, hall⟩
      · cases heq
      · cases heq
        obtain ⟨hdot, hall⟩ := List.forall_mem_cons.mp hall
        rw [checkSuffixes, if_pos (beq_iff_eq.mpr hdot)]
        exact ih.mpr ⟨suffixes, rfl, hall⟩

/-- A value with items counts as nothing if there are none. -/
theorem isFalsy_of_items? {value : Data} {items : List Data} (h : items? value = some items) :
    value.isFalsy = items.isEmpty := by
  cases value with
  | text s =>
    cases h
    simp only [Data.isFalsy, List.isEmpty_map]
    rw [Bool.eq_iff_iff, String.isEmpty_iff, List.isEmpty_iff, String.toList_eq_nil_iff]
  | list items => cases h; rfl
  | table fields => cases h; simp [Data.isFalsy]
  | _ => cases h

theorem checkExtensions_eq_ok_iff {value kept : Data} :
    checkExtensions value = .ok kept ↔ value = kept ∧ ∃ suffixes : List String,
      suffixes ≠ [] ∧ items? value = some (suffixes.map .text) ∧
        ∀ suffix ∈ suffixes, suffix.toList.head? = some '.' := by
  unfold checkExtensions
  cases hitems : items? value with
  | none => split <;> simp
  | some items =>
    rw [isFalsy_of_items? hitems]
    constructor
    · intro h
      split at h
      · cases h
      · rename_i hsome
        obtain ⟨_, hcheck, hkept⟩ := exists_of_bind_eq_ok h
        obtain ⟨suffixes, rfl, hall⟩ := checkSuffixes_eq_ok_iff.mp hcheck
        refine ⟨Except.ok.inj hkept, suffixes, ?_, rfl, hall⟩
        rintro rfl
        exact hsome rfl
    · rintro ⟨rfl, suffixes, hne, heq, hall⟩
      cases heq
      rw [if_neg (by simpa using hne)]
      exact congrArg (· >>= fun _ => .ok value) (checkSuffixes_eq_ok_iff.mpr ⟨suffixes, rfl, hall⟩)

/-! ## All checks -/

/-- What the check of a setting lets through. The settings without a check let everything
through. -/
def Passes : Setting → Data → Prop
  | .style, value => ∃ style : Report.Style, value = .text style.name
  | .command, value =>
    ∃ command : String, value = .text command ∧ ∃ c ∈ command.toList, Text.isBlank c = false
  | .timeout, value => value = .null ∨ isBelowOne? value = some false
  | .extensions, value => ∃ suffixes : List String, suffixes ≠ [] ∧
      items? value = some (suffixes.map .text) ∧
        ∀ suffix ∈ suffixes, suffix.toList.head? = some '.'
  | .verbosity, value => ∃ verbosity : Verbosity, value = .text verbosity.name
  | .compilerConfig, _ | .unexpected, _ | .excluded, _ | .compilerOptions, _ => True

variable {given : Setting → Data} {s : Settings}

theorem value_of_ofValues (h : ofValues given = .ok s) (x : Setting) :
    s.value x = given x ∧ Passes x (given x) := by
  -- in the order of the checks
  obtain ⟨style, hstyle, h⟩ := exists_of_bind_eq_ok h
  obtain ⟨verbosity, hverbosity, h⟩ := exists_of_bind_eq_ok h
  obtain ⟨command, hcommand, h⟩ := exists_of_bind_eq_ok h
  obtain ⟨timeout, htimeout, h⟩ := exists_of_bind_eq_ok h
  obtain ⟨extensions, hextensions, h⟩ := exists_of_bind_eq_ok h
  cases h
  cases x with
  | style =>
    obtain ⟨name, hname, hof⟩ := checkName_eq_ok_iff.mp hstyle
    rw [hname, Report.Style.ofName?_eq_some_iff.mp hof]
    exact ⟨rfl, style, rfl⟩
  | verbosity =>
    obtain ⟨name, hname, hof⟩ := checkName_eq_ok_iff.mp hverbosity
    rw [hname, Verbosity.ofName?_eq_some_iff.mp hof]
    exact ⟨rfl, verbosity, rfl⟩
  | command =>
    obtain ⟨htext, hsome⟩ := checkCommand_eq_ok_iff.mp hcommand
    exact ⟨htext.symm, command, htext, hsome⟩
  | timeout =>
    obtain ⟨hkept, hrange⟩ := checkTimeout_eq_ok_iff.mp htimeout
    exact ⟨hkept.symm, hrange⟩
  | extensions =>
    obtain ⟨hkept, hall⟩ := checkExtensions_eq_ok_iff.mp hextensions
    exact ⟨hkept.symm, hall⟩
  | _ => exact ⟨rfl, trivial⟩

theorem exists_ofValues_iff : (∃ s, ofValues given = .ok s) ↔ ∀ x, Passes x (given x) := by
  constructor
  · rintro ⟨s, h⟩ x
    exact (value_of_ofValues h x).2
  · intro h
    obtain ⟨style, hstyle⟩ := h .style
    obtain ⟨verbosity, hverbosity⟩ := h .verbosity
    obtain ⟨command, hcommand⟩ := h .command
    unfold ofValues
    rw [checkName_eq_ok_iff.mpr ⟨_, hstyle, Report.Style.ofName?_eq_some_iff.mpr rfl⟩,
      checkName_eq_ok_iff.mpr ⟨_, hverbosity, Verbosity.ofName?_eq_some_iff.mpr rfl⟩,
      checkCommand_eq_ok_iff.mpr hcommand, checkTimeout_eq_ok_iff.mpr ⟨rfl, h .timeout⟩,
      checkExtensions_eq_ok_iff.mpr ⟨rfl, h .extensions⟩]
    exact ⟨_, rfl⟩

theorem Fault.isUnder_problem (fault : Fault) :
    fault.problem.kind.isUnder .configuration = true := by
  cases fault <;> rfl

end Settings

end ExpectedDiagnostics
