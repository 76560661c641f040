import ExpectedDiagnostics.Proofs.FileTree
import ExpectedDiagnostics.Proofs.Settings.Kinds
import ExpectedDiagnostics.Settings.Layers

/-!
# What the places say

Six places may say something of a setting. What they say is told here in their own terms: a settings
file is found by its path, its octets are the UTF-8 form of a text, and the text is a TOML document
(`Documents`); a variable of the environment is found by its name, and its text is a truth value, a
number, or stands for itself, depending on the setting (`spoken?`). The program reads just this.

Main results:

* `readOptional_eq_ok_iff` / `readNamed_eq_ok_iff` — what is read of a settings file.
* `exists_readVariable_iff` / `parsed?_of_readVariable` — what is read of a variable.
* `Sources.reads_iff` — every place can be read exactly if the program reads it.
-/

namespace ExpectedDiagnostics.Settings

open Data (names last?)

/-! ## Files -/

/-- What the settings files say. -/
structure Files where
  home : Layer
  project : Layer
  named : Layer

/-- A path leads to a file whose octets are a text in UTF-8, and the text is the TOML document of a
layer. -/
def Documents (w : Workspace) (path : Path) (layer : Layer) : Prop :=
  ∃ octets text, w.find? path = .ok (some (.file octets)) ∧ Utf8.decode octets = .ok text ∧
    Toml.read? text = some layer

/-- A file that is found is read. -/
theorem readOctets_eq_ok_iff {w : Workspace} {path : Path} {octets : List UInt8} :
    w.readOctets path = .ok octets ↔ w.find? path = .ok (some (.file octets)) := by
  -- both ask the tree for the same place, and differ only in what they say where nothing is found
  unfold Workspace.readOctets Workspace.find? FileTree.find? FileTree.read
  cases path.hasNull with
  | true => simp [Except.mapError]
  | false =>
    cases hlocate : w.tree.locate w.directory path with
    | error cause => cases cause <;> simp [Except.mapError]
    | ok place =>
      cases hentry : w.tree.entry? place with
      | none => simp [Except.mapError, hentry]
      | some entry => cases entry <;> simp [Except.mapError, hentry]

theorem readFile_eq_ok_iff {w : Workspace} {path : Path} {layer : Layer} :
    readFile w path = .ok layer ↔ Documents w path layer := by
  unfold readFile Documents
  constructor
  · intro h
    split at h
    · exact nomatch h
    · rename_i octets hoctets
      split at h
      · exact nomatch h
      · rename_i text htext
        cases hparse : Toml.read? text with
        | none =>
          rw [hparse] at h
          exact nomatch h
        | some fields =>
          rw [hparse] at h
          obtain rfl : fields = layer := Except.ok.inj h
          exact ⟨octets, text, readOctets_eq_ok_iff.mp hoctets, htext, hparse⟩
  · rintro ⟨octets, text, hfind, htext, hparse⟩
    rw [readOctets_eq_ok_iff.mpr hfind]
    simp only [htext, hparse]
    rfl

/-- Where nothing is found, there is no document. -/
theorem not_documents_of_find? {w : Workspace} {path : Path} {layer : Layer}
    (h : ∀ octets, w.find? path ≠ .ok (some (.file octets))) : ¬ Documents w path layer := by
  rintro ⟨octets, -, hfile, -⟩
  exact h octets hfile

/-- A settings file that need not be there is a document, or says nothing. -/
theorem readOptional_eq_ok_iff {w : Workspace} {path : Path} {layer : Layer} :
    readOptional w path = .ok layer ↔
      w.find? path = .ok none ∧ layer = [] ∨ Documents w path layer := by
  rw [← readFile_eq_ok_iff]
  show (w.find? path >>= fun found => if found.isSome then readFile w path else .ok []) =
    .ok layer ↔ _
  cases hfind : w.find? path with
  | error f =>
    rw [readFile_eq_ok_iff, or_iff_left (not_documents_of_find? (by simp [hfind]))]
    exact iff_of_false nofun nofun
  | ok entry? =>
    cases entry? with
    | none =>
      rw [readFile_eq_ok_iff, or_iff_left (not_documents_of_find? (by simp [hfind]))]
      exact ⟨fun h => ⟨rfl, (Except.ok.inj h).symm⟩, fun h => congrArg Except.ok h.2.symm⟩
    | some entry => exact ⟨.inr, fun h => h.resolve_left nofun⟩

/-- A settings file that is named has to be there. -/
theorem readNamed_eq_ok_iff {w : Workspace} {config : Option Path} {layer : Layer} :
    readNamed w config = .ok layer ↔
      config = none ∧ layer = [] ∨ ∃ path, config = some path ∧ Documents w path layer := by
  cases config with
  | none => simp [readNamed, eq_comm]
  | some path =>
    have hread : readNamed w (some path) = .ok layer ↔ Documents w path layer := by
      rw [← readFile_eq_ok_iff]
      show (w.find? path >>= fun found => if found.isSome then readFile w path
        else throw (.problem (.missingSettingsFile path))) = .ok layer ↔ _
      cases hfind : w.find? path with
      | error f =>
        rw [readFile_eq_ok_iff]
        exact iff_of_false nofun (not_documents_of_find? (by simp [hfind]))
      | ok entry? =>
        cases entry? with
        | none =>
          rw [readFile_eq_ok_iff]
          exact iff_of_false nofun (not_documents_of_find? (by simp [hfind]))
        | some entry => exact Iff.rfl
    rw [hread]
    simp

/-! ## Variables -/

/-- The text of the variable of a setting: its name begins with `TS_EXPECT_ERROR_`, and goes on with
that of the setting in capitals. -/
def variableText? (environment : List (String × String)) (x : Setting) : Option String :=
  environment.lookup ("TS_EXPECT_ERROR_" ++ x.name.toUpper)

/-- What a text says of a setting. Lists and tables have no such text. -/
def spoken? (text : String) : Setting → Option Data
  | .unexpected =>
    if Text.lower text ∈ ["true", "1", "yes", "on"] then some (.bool true)
    else if Text.lower text ∈ ["false", "0", "no", "off"] then some (.bool false)
    else none
  | .timeout => (Text.integer? text.toList).map .int
  | .compilerConfig | .style | .command | .verbosity => some (.text text)
  | .extensions | .excluded | .compilerOptions => none

/-- What the environment says of a setting. -/
def parsed? (environment : List (String × String)) (x : Setting) : Option Data :=
  (variableText? environment x).bind (spoken? · x)

/-- The settings of which a text can be wrong: truth values and numbers. -/
def IsParsed (x : Setting) : Prop :=
  x = .unexpected ∨ x = .timeout

/-- A text is read as what it says, and refused only where a truth value or a number is missing. -/
theorem read_form (x : Setting) (text : String) :
    (x.form.read text).toOption.join = spoken? text x ∧
      ((∃ value?, x.form.read text = .ok value?) ↔
        (IsParsed x → ∃ value, spoken? text x = some value)) := by
  cases x with
  -- words for on and off, or neither
  | unexpected =>
    simp only [Setting.form, Setting.Form.read, spoken?, IsParsed, Setting.onWords,
      Setting.offWords, List.contains_iff_mem, true_or, true_imp_iff]
    split
    · exact ⟨rfl, iff_of_true ⟨_, rfl⟩ ⟨_, rfl⟩⟩
    · split
      · exact ⟨rfl, iff_of_true ⟨_, rfl⟩ ⟨_, rfl⟩⟩
      · exact ⟨rfl, iff_of_false (by simp) (by simp)⟩
  | timeout =>
    simp only [Setting.form, Setting.Form.read, spoken?, IsParsed, or_true, true_imp_iff]
    cases Text.integer? text.toList with
    | none => exact ⟨rfl, iff_of_false (by simp) (by simp)⟩
    | some n => exact ⟨rfl, iff_of_true ⟨_, rfl⟩ ⟨_, rfl⟩⟩
  -- any text will do
  | compilerConfig | style | command | verbosity =>
    exact ⟨rfl, iff_of_true ⟨_, rfl⟩ fun _ => ⟨_, rfl⟩⟩
  -- no text says anything of them, and none is refused
  | extensions | excluded | compilerOptions =>
    refine ⟨rfl, iff_of_true ⟨_, rfl⟩ fun h => ?_⟩
    rcases h with h | h
    · cases h
    · cases h

variable {environment : List (String × String)} {x : Setting}

theorem parsed?_of_readVariable {value? : Option Data}
    (h : readVariable environment x = .ok value?) : parsed? environment x = value? := by
  unfold readVariable at h
  unfold parsed? variableText?
  unfold Setting.variableName at h
  cases htext : environment.lookup ("TS_EXPECT_ERROR_" ++ x.name.toUpper) with
  | none =>
    rw [htext] at h
    exact Except.ok.inj h
  | some text =>
    rw [htext] at h
    rw [Option.bind_some, ← (read_form x text).1, exists_of_mapError_eq_ok h]
    rfl

theorem exists_readVariable_iff : (∃ value?, readVariable environment x = .ok value?) ↔
    (IsParsed x → ∀ text, variableText? environment x = some text →
      ∃ value, spoken? text x = some value) := by
  unfold readVariable variableText? Setting.variableName
  cases environment.lookup ("TS_EXPECT_ERROR_" ++ x.name.toUpper) with
  | none => exact iff_of_true ⟨none, rfl⟩ fun _ => nofun
  | some text =>
    have hread := (read_form x text).2
    constructor
    · rintro ⟨value?, h⟩ hparsed other hother
      obtain rfl := Option.some.inj hother
      exact hread.mp ⟨value?, exists_of_mapError_eq_ok h⟩ hparsed
    · intro h
      obtain ⟨value?, hvalue⟩ := hread.mpr fun hparsed => h hparsed text rfl
      refine ⟨value?, ?_⟩
      dsimp only
      rw [hvalue]
      rfl

/-- Lists and tables do not come from the environment. -/
theorem parsed?_of_structured (h : x.form = .structured) : parsed? environment x = none := by
  unfold parsed?
  cases x with
  | extensions | excluded | compilerOptions => cases variableText? environment _ <;> rfl
  | _ => exact nomatch h

/-! ## All places -/

/-- Every place can be read, and this is what the files say. In the home directory and in the
directory in which the program runs there need not be a settings file, but a file that is named has
to be there. A variable of a truth value or a number has to be one. -/
structure Sources.Reads (s : Sources) (files : Files) : Prop where
  home : let path := (s.workspace.home.step ".ts-expect-error.toml").toPath
    s.workspace.find? path = .ok none ∧ files.home = [] ∨ Documents s.workspace path files.home
  project : let path := (s.workspace.directory.step "ts-expect-error.toml").toPath
    s.workspace.find? path = .ok none ∧ files.project = [] ∨
      Documents s.workspace path files.project
  named : s.config = none ∧ files.named = [] ∨
    ∃ path, s.config = some path ∧ Documents s.workspace path files.named
  environment : ∀ x, IsParsed x → ∀ text, variableText? s.environment x = some text →
    ∃ value, spoken? text x = some value

/-- The program reads just this. -/
theorem Sources.reads_iff {s : Sources} {files : Files} : s.Reads files ↔
    readOptional s.workspace (homeFile s.workspace) = .ok files.home ∧
      readOptional s.workspace (projectFile s.workspace) = .ok files.project ∧
      readNamed s.workspace s.config = .ok files.named ∧
      ∀ x, ∃ value?, readVariable s.environment x = .ok value? := by
  simp only [readOptional_eq_ok_iff, readNamed_eq_ok_iff, exists_readVariable_iff]
  exact ⟨fun h => ⟨h.home, h.project, h.named, h.environment⟩,
    fun ⟨home, project, named, environment⟩ => ⟨home, project, named, environment⟩⟩

end ExpectedDiagnostics.Settings
