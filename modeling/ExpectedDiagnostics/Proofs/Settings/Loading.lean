import ExpectedDiagnostics.Proofs.Settings.Precedence

/-!
# Loading settings

What loading settings can come to: settings in which every value is well typed or slips, a problem
with the settings, or one of two failures of another kind, when a settings file is no text and when
the path of one is too long to be looked at.

The caller and the environment give values of the right kinds, so a value that slips was written in
a file (`inFile_of_not_wellTyped`).

Main results: `fails_of_load`, and `loaded_values`, which puts together when there are settings and
what their values are.
-/

namespace ExpectedDiagnostics.Settings

open Data (names last? field?)

variable {s : Sources} {files : Files} {settings : Settings}

/-! ## Failures -/

/-- A path at which settings are looked for. -/
def Sources.Consults (s : Sources) (path : Path) : Prop :=
  path = homeFile s.workspace ∨ path = projectFile s.workspace ∨ s.config = some path

/-- Why settings are not loaded. -/
inductive Sources.Fails (s : Sources) : Failure → Prop
  /-- Something is wrong with the settings. -/
  | configuration {p : Problem} (h : p.kind.isUnder .configuration = true) : s.Fails (.problem p)
  /-- A path is too long for the file system. -/
  | tooLong {path : Path} (hpath : s.Consults path)
      (h : s.workspace.find? path = .error (.file ⟨.tooLong, path⟩)) :
      s.Fails (.file ⟨.tooLong, path⟩)
  /-- A file is no text. -/
  | encoding {path : Path} {octets : List UInt8} {fault : Utf8.Fault} (hpath : s.Consults path)
      (hread : s.workspace.readOctets path = .ok octets) (h : Utf8.decode octets = .error fault) :
      s.Fails (.encoding fault)

theorem find?_eq_error {w : Workspace} {path : Path} {e : Failure} (h : w.find? path = .error e) :
    e = .file ⟨.tooLong, path⟩ := by
  obtain ⟨fault, hfault, rfl⟩ := exists_of_mapError_eq_error h
  unfold FileTree.find? at hfault
  split at hfault
  · cases hfault
  · split at hfault <;> cases hfault
    rfl

theorem fails_of_find? {path : Path} {e : Failure} (hpath : s.Consults path)
    (h : s.workspace.find? path = .error e) : s.Fails e := by
  obtain rfl := find?_eq_error h
  exact .tooLong hpath h

theorem fails_of_readFile {path : Path} {e : Failure} (hpath : s.Consults path)
    (h : readFile s.workspace path = .error e) : s.Fails e := by
  unfold readFile at h
  split at h
  · cases h
    exact .configuration rfl
  · rename_i octets hread
    split at h
    · rename_i fault hdecode
      cases h
      exact .encoding hpath hread hdecode
    · rename_i text hdecode
      cases hparse : Toml.read? text with
      | some fields =>
        rw [hparse] at h
        cases h
      | none =>
        rw [hparse] at h
        cases h
        exact .configuration rfl

theorem fails_of_readOptional {path : Path} {e : Failure} (hpath : s.Consults path)
    (h : readOptional s.workspace path = .error e) : s.Fails e := by
  rcases error_of_bind_eq_error h with hfind | ⟨found, -, h⟩
  · exact fails_of_find? hpath hfind
  · split at h
    · exact fails_of_readFile hpath h
    · cases h

theorem fails_of_readNamed {e : Failure} (h : readNamed s.workspace s.config = .error e) :
    s.Fails e := by
  cases hconfig : s.config with
  | none =>
    rw [hconfig] at h
    cases h
  | some path =>
    have hpath : s.Consults path := .inr (.inr hconfig)
    rw [hconfig] at h
    rcases error_of_bind_eq_error h with hfind | ⟨found, -, h⟩
    · exact fails_of_find? hpath hfind
    · split at h
      · exact fails_of_readFile hpath h
      · cases h
        exact .configuration rfl

theorem isUnder_of_readVariables {environment : List (String × String)} {xs : List Setting}
    {p : Problem} (h : readVariables environment xs = .error p) :
    p.kind.isUnder .configuration = true := by
  induction xs with
  | nil => cases h
  | cons x xs ih =>
    rcases error_of_bind_eq_error h with hvariable | ⟨value?, -, h⟩
    · unfold readVariable at hvariable
      split at hvariable
      · cases hvariable
      · obtain ⟨reason, -, rfl⟩ := exists_of_mapError_eq_error hvariable
        rfl
    · rcases error_of_bind_eq_error h with hrest | ⟨layer, -, h⟩
      · exact ih hrest
      · cases h

theorem isUnder_of_ofLayer {layer : Layer} {p : Problem} (h : ofLayer layer = .error p) :
    p.kind.isUnder .configuration = true := by
  by_cases htable : IsTableOrAbsent (field? layer Setting.compilerOptions.name)
  · rw [ofLayer_eq htable] at h
    split at h
    · cases h
      rfl
    · obtain ⟨fault, -, rfl⟩ := exists_of_mapError_eq_error h
      exact fault.isUnder_problem
  · obtain ⟨value, herror⟩ := ofLayer_of_not_isTableOrAbsent htable
    cases herror.symm.trans h
    rfl

theorem fails_of_load {e : Failure} (h : load s = .error e) : s.Fails e := by
  -- the places are read one after the other, and the first failure is the one that is told
  rcases error_of_bind_eq_error h with hlayers | ⟨layers, -, h⟩
  · rcases error_of_bind_eq_error hlayers with hhome | ⟨home, -, h⟩
    · exact fails_of_readOptional (.inl rfl) hhome
    rcases error_of_bind_eq_error h with hproject | ⟨project, -, h⟩
    · exact fails_of_readOptional (.inr (.inl rfl)) hproject
    rcases error_of_bind_eq_error h with hnamed | ⟨named, -, h⟩
    · exact fails_of_readNamed hnamed
    rcases error_of_bind_eq_error h with henvironment | ⟨layer, -, h⟩
    · obtain ⟨p, hp, rfl⟩ := exists_of_mapError_eq_error henvironment
      exact .configuration (isUnder_of_readVariables hp)
    · cases h
  · obtain ⟨p, hp, rfl⟩ := exists_of_mapError_eq_error h
    exact .configuration (isUnder_of_ofLayer hp)

/-! ## Values -/

/-- The caller gives values of the right kinds. -/
def Overrides.OfKinds (o : Overrides) : Prop :=
  ∀ (x : Setting) (value : Data), (x.name, value) ∈ o.given → HasKind x value

theorem hasKind_of_said? {o : Overrides} (hkinds : o.OfKinds) {x : Setting} {value : Data}
    (h : o.said? x = some value) : HasKind x value := by
  unfold Overrides.said? at h
  split at h
  · rename_i hquiet
    cases h
    rw [hquiet.1]
    exact ⟨_, rfl⟩
  · split at h
    · rename_i hverbose
      cases h
      rw [hverbose.1]
      exact ⟨_, rfl⟩
    · exact hkinds x value (Data.mem_of_last? h)

theorem hasKind_of_spoken? {x : Setting} {text : String} {value : Data}
    (h : spoken? text x = some value) : HasKind x value := by
  cases x with
  | unexpected =>
    simp only [spoken?] at h
    split at h
    · cases h
      exact ⟨true, rfl⟩
    · split at h <;> cases h
      exact ⟨false, rfl⟩
  | timeout =>
    obtain ⟨n, -, rfl⟩ := Option.map_eq_some_iff.mp h
    exact ⟨n, rfl⟩
  | compilerConfig | style | command | verbosity =>
    cases h
    exact ⟨text, rfl⟩
  | extensions | excluded | compilerOptions => cases h

theorem hasKind_of_parsed? {environment : List (String × String)} {x : Setting} {value : Data}
    (h : parsed? environment x = some value) : HasKind x value := by
  obtain ⟨text, -, hspoken⟩ := Option.bind_eq_some_iff.mp h
  exact hasKind_of_spoken? hspoken

theorem isTableOrAbsent_iff (files : Files) : IsTableOrAbsent (s.value? files .compilerOptions) ↔
    ∃ fields, s.value files .compilerOptions = .table fields := by
  unfold Sources.value
  cases s.value? files .compilerOptions with
  | none => exact iff_of_true nofun ⟨_, rfl⟩
  | some value => simp [IsTableOrAbsent]

/-- There are settings if all names are known and every value is well typed or slips. -/
theorem exists_load_iff_of_kinds (hreads : s.Reads files) : (∃ settings, load s = .ok settings) ↔
    (∀ name, ¬ s.IsUnknown files name) ∧
      ∀ x, WellTyped x (s.value files x) ∨ Slips x (s.value files x) := by
  rw [exists_load_iff hreads, isTableOrAbsent_iff, and_left_comm]
  refine and_congr_right fun _ => ?_
  simp only [← passes_iff]
  constructor
  · rintro ⟨htable, hpasses⟩ x
    -- only for the compiler options there is something left to show
    refine ⟨hpasses x, ?_⟩
    rintro rfl
    exact htable
  · intro h
    exact ⟨(h .compilerOptions).2 rfl, fun x => (h x).1⟩

/-- A value that is not well typed was written in a file, and no higher place says anything of its
setting. -/
theorem inFile_of_not_wellTyped (hreads : s.Reads files) (hkinds : s.overrides.OfKinds)
    (h : load s = .ok settings) {x : Setting} (hnot : ¬ WellTyped x (settings.value x)) :
    Slips x (settings.value x) ∧ s.overrides.said? x = none ∧ parsed? s.environment x = none ∧
      ∃ layer ∈ [files.home, files.project, files.named],
        last? layer x.name = some (settings.value x) := by
  have hvalue := value_of_load h hreads x
  have haccepted := ((exists_load_iff_of_kinds hreads).mp ⟨settings, h⟩).2 x
  rw [← hvalue] at haccepted
  have hkind : ¬ HasKind x (settings.value x) := fun hkind =>
    hnot (wellTyped_of_hasKind hkind haccepted)
  refine ⟨haccepted.resolve_left hnot, ?_⟩
  unfold Sources.value at hvalue
  cases hwhole : s.value? files x with
  | none =>
    rw [hwhole] at hvalue
    exact absurd (hvalue ▸ wellTyped_default x) hnot
  | some value =>
    rw [hwhole, Option.getD_some] at hvalue
    rw [hvalue] at hkind ⊢
    unfold Sources.value? at hwhole
    simp only [Option.or_eq_some_iff] at hwhole
    -- one case for each place, the caller first; the value is not of a kind that the first two give
    rcases hwhole with hcaller | ⟨hcaller, hvariable | ⟨hvariable, hfile⟩⟩
    · exact absurd (hasKind_of_said? hkinds hcaller) hkind
    · exact absurd (hasKind_of_parsed? hvariable) hkind
    · refine ⟨hcaller, hvariable, ?_⟩
      rcases hfile with hnamed | ⟨-, hproject | ⟨-, hhome⟩⟩
      · exact ⟨files.named, by simp, hnamed⟩
      · exact ⟨files.project, by simp, hproject⟩
      · exact ⟨files.home, by simp, hhome⟩

/-! ## A truth value that is written as a text -/

/-- A project whose settings file says `no` in quotation marks, and nothing else. -/
def quotedSources : Sources :=
  ⟨withFiles [(⟨["work", "ts-expect-error.toml"]⟩, "report_unexpected_errors = \"no\"\n")], none, [],
    ⟨[], false, false⟩⟩

def quotedFiles : Files :=
  ⟨[], [("report_unexpected_errors", .text "no")], []⟩

theorem reads_quoted : quotedSources.Reads quotedFiles where
  home := .inl ⟨rfl, rfl⟩
  project := by
    have hparse : Toml.read? "report_unexpected_errors = \"no\"\n".toList =
        some [("report_unexpected_errors", .text "no")] :=
      read?_of_plain [("report_unexpected_errors", .text "no")] (by decide +kernel)
    exact .inr (documents_of_find? rfl hparse)
  named := .inl ⟨rfl, rfl⟩
  environment := nofun

theorem value?_quoted (x : Setting) : quotedSources.value? quotedFiles x =
    if x = .unexpected then some (.text "no") else none := by
  cases x <;> rfl

theorem not_wellTyped_text (s : String) : ¬ WellTyped .unexpected (.text s) := by
  rintro ⟨b, hb⟩
  cases hb

theorem accepts_quoted : (∀ name, ¬ quotedSources.IsUnknown quotedFiles name) ∧
    ∀ x, WellTyped x (quotedSources.value quotedFiles x) ∨
      Slips x (quotedSources.value quotedFiles x) := by
  constructor
  · rintro name ⟨hname, hgiven⟩
    have hproject : names quotedFiles.project = [Setting.unexpected.name] := rfl
    have hcaller : names quotedSources.overrides.given = [] := rfl
    rw [hproject, hcaller] at hgiven
    simp [quotedFiles, names, hname] at hgiven
  · intro x
    unfold Sources.value
    rw [value?_quoted]
    split
    · rename_i hx
      subst hx
      exact .inr (.unexpected (not_wellTyped_text "no"))
    · exact .inl (wellTyped_default x)

theorem ofKinds_quoted : quotedSources.overrides.OfKinds := by
  rintro x value hgiven
  cases hgiven

theorem value_of_quoted (h : load quotedSources = .ok settings) :
    settings.value .unexpected = .text "no" := by
  rw [value_of_load h reads_quoted]
  rfl

/-- Loading settings fails for the reasons that are listed, and succeeds if all names are known and
every value gets through. If the caller gives values of the right kinds, each value of the settings
is well typed, or it slips and was written in a file. -/
theorem loaded_values (s : Sources) :
    (∀ e, load s = .error e → s.Fails e) ∧
    (∀ files, s.Reads files → ((∃ settings, load s = .ok settings) ↔
      (∀ name, ¬ s.IsUnknown files name) ∧
        ∀ x, WellTyped x (s.value files x) ∨ Slips x (s.value files x))) ∧
    ∀ settings, load s = .ok settings → s.overrides.OfKinds → ∀ x,
      WellTyped x (settings.value x) ∨ Slips x (settings.value x) ∧
        s.overrides.said? x = none ∧ parsed? s.environment x = none ∧ ∃ files, s.Reads files ∧
          ∃ layer ∈ [files.home, files.project, files.named],
            last? layer x.name = some (settings.value x) := by
  refine ⟨fun e => fails_of_load, fun files => exists_load_iff_of_kinds,
    fun settings h hkinds x => ?_⟩
  obtain ⟨files, hreads⟩ := exists_reads_of_load h
  refine (em _).imp_right fun hnot => ?_
  obtain ⟨hslips, hcaller, hvariable, hfile⟩ := inFile_of_not_wellTyped hreads hkinds h hnot
  exact ⟨hslips, hcaller, hvariable, files, hreads, hfile⟩

theorem loaded_values_quoted : ∃ settings, load quotedSources = .ok settings ∧
    Slips .unexpected (settings.value .unexpected) := by
  obtain ⟨-, hsucceeds, hvalues⟩ := loaded_values quotedSources
  obtain ⟨settings, h⟩ := (hsucceeds quotedFiles reads_quoted).mpr accepts_quoted
  refine ⟨settings, h, ?_⟩
  rcases hvalues settings h ofKinds_quoted .unexpected with hwell | ⟨hslips, -⟩
  · rw [value_of_quoted h] at hwell
    exact absurd hwell (not_wellTyped_text "no")
  · exact hslips

/-- A text gets through as a truth value, and whatever it says, it counts as true. -/
theorem text_counts_as_true : ∃ settings, load quotedSources = .ok settings ∧
    quotedSources.overrides.OfKinds ∧ ¬ WellTyped .unexpected (settings.value .unexpected) ∧
      (settings.value .unexpected).isFalsy = false := by
  obtain ⟨settings, h⟩ := (exists_load_iff_of_kinds reads_quoted).mpr accepts_quoted
  refine ⟨settings, h, ofKinds_quoted, ?_⟩
  rw [value_of_quoted h]
  exact ⟨not_wellTyped_text "no", rfl⟩

end ExpectedDiagnostics.Settings
