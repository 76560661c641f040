import ExpectedDiagnostics.Proofs.Settings.Places
import ExpectedDiagnostics.Proofs.Utf8

/-!
# Which place counts

Several places may say something of a setting: the caller, the environment, the file that is named,
the file of the project, and the file in the home directory. The highest of them counts, and the
default only if none of them says anything. Compiler options are no exception: they are one value,
so the options of a lower place are gone.

The layers are joined into one table. It holds what the fields of all layers, one layer after the
other, say last (`field?_merge`), so it is enough to know what each layer says last: the files as
they are, the environment (`last?_readVariables`), and the caller (`last?_layer`).

Main results:

* `load_of_reads` — if every place can be read, the settings are those of a table that holds for
  each setting what the highest place says, and the names that the places give.
* `exists_load_iff` — when there are settings.
* `highest_place_counts` — which place each setting comes from, and which names are refused.
-/

namespace ExpectedDiagnostics.Settings

open Data (names last? field? update)

/-! ## The highest place -/

/-- The values that the caller gives by name. -/
def Overrides.given (o : Overrides) : Layer :=
  o.values.filter (isGiven ·.2)

/-- What the caller says of a setting. Little log goes before much log, and either goes before a
verbosity by name. -/
def Overrides.said? (o : Overrides) (x : Setting) : Option Data :=
  if x = .verbosity ∧ o.quiet = true then some (.text Verbosity.quiet.name)
  else if x = .verbosity ∧ o.verbose = true then some (.text Verbosity.verbose.name)
  else last? o.given x.name

/-- What the highest place says that says anything of a setting. -/
def Sources.value? (s : Sources) (files : Files) (x : Setting) : Option Data :=
  (s.overrides.said? x).or <| (parsed? s.environment x).or <| (last? files.named x.name).or <|
    (last? files.project x.name).or (last? files.home x.name)

/-- The value that a setting comes to. -/
def Sources.value (s : Sources) (files : Files) (x : Setting) : Data :=
  (s.value? files x).getD x.default

/-- A name that a file or the caller gives and that no setting has. -/
def Sources.IsUnknown (s : Sources) (files : Files) (name : String) : Prop :=
  (∀ x : Setting, name ≠ x.name) ∧ (name ∈ names files.home ∨ name ∈ names files.project ∨
    name ∈ names files.named ∨ name ∈ names s.overrides.given)

/-! ## The environment -/

variable {environment : List (String × String)}

theorem exists_readVariables_iff {settings : List Setting} :
    (∃ layer, readVariables environment settings = .ok layer) ↔
      ∀ x ∈ settings, ∃ value?, readVariable environment x = .ok value? := by
  induction settings with
  | nil => exact iff_of_true ⟨[], rfl⟩ nofun
  | cons x settings ih =>
    rw [List.forall_mem_cons, ← ih]
    constructor
    · rintro ⟨layer, h⟩
      obtain ⟨value?, hvalue, h⟩ := exists_of_bind_eq_ok h
      obtain ⟨rest, hrest, -⟩ := exists_of_bind_eq_ok h
      exact ⟨⟨value?, hvalue⟩, rest, hrest⟩
    · rintro ⟨⟨value?, hvalue⟩, rest, hrest⟩
      rw [readVariables, hvalue, hrest]
      exact ⟨_, rfl⟩

/-- The layer of a setting and of the settings after it. -/
theorem exists_of_readVariables_cons {x : Setting} {settings : List Setting} {layer : Layer}
    (h : readVariables environment (x :: settings) = .ok layer) :
    ∃ rest, readVariables environment settings = .ok rest ∧
      layer = ((parsed? environment x).toList.map fun value => (x.name, value)) ++ rest := by
  obtain ⟨value?, hvalue, h⟩ := exists_of_bind_eq_ok h
  obtain ⟨rest, hrest, h⟩ := exists_of_bind_eq_ok h
  refine ⟨rest, hrest, ?_⟩
  rw [parsed?_of_readVariable hvalue]
  exact (Except.ok.inj h).symm

theorem last?_readVariables {settings : List Setting} {layer : Layer}
    (h : readVariables environment settings = .ok layer) (x : Setting) :
    last? layer x.name = if x ∈ settings then parsed? environment x else none := by
  induction settings generalizing layer with
  | nil => cases h; rfl
  | cons y settings ih =>
    obtain ⟨rest, hrest, rfl⟩ := exists_of_readVariables_cons h
    have hhead : last? ((parsed? environment y).toList.map fun value => (y.name, value)) x.name =
        if x = y then parsed? environment x else none := by
      by_cases hxy : x = y
      · subst hxy
        cases parsed? environment x <;> simp [last?]
      · have hname : y.name ≠ x.name := fun heq => hxy (Setting.name_inj.mp heq).symm
        cases parsed? environment y <;> simp [last?, hxy, hname]
    rw [Data.last?_append, ih hrest, hhead]
    -- the settings after `y` count more, but if `x` is one of them, the same variable was read
    by_cases hxy : x = y
    · subst hxy
      by_cases hmem : x ∈ settings <;> simp [hmem]
    · simp [hxy]

theorem exists_of_mem_readVariables {settings : List Setting} {layer : Layer} {name : String}
    (h : readVariables environment settings = .ok layer) (hname : name ∈ names layer) :
    ∃ x : Setting, name = x.name := by
  induction settings generalizing layer with
  | nil => cases h; cases hname
  | cons y settings ih =>
    obtain ⟨rest, hrest, rfl⟩ := exists_of_readVariables_cons h
    rw [Data.names_append, List.mem_append] at hname
    rcases hname with hhead | htail
    · refine ⟨y, ?_⟩
      obtain ⟨f, hf, rfl⟩ := List.mem_map.mp hhead
      obtain ⟨value, -, rfl⟩ := List.mem_map.mp hf
      rfl
    · exact ih hrest htail

/-! ## The caller -/

theorem last?_say (v : Verbosity) (on : Bool) (layer : Layer) (name : String) :
    last? ((if on then Data.setField layer Setting.verbosity.name (.text v.name)
      else layer).filter (isGiven ·.2)) name =
      if name = Setting.verbosity.name ∧ on = true then some (.text v.name)
      else last? (layer.filter (isGiven ·.2)) name := by
  cases on with
  | false => simp
  | true =>
    rw [if_pos rfl, Data.last?_filter_setField rfl]
    simp only [and_true]

theorem last?_layer (o : Overrides) (name : String) : last? o.layer name =
    if name = Setting.verbosity.name ∧ o.quiet = true then some (.text Verbosity.quiet.name)
    else if name = Setting.verbosity.name ∧ o.verbose = true then
      some (.text Verbosity.verbose.name)
    else last? o.given name := by
  unfold Overrides.layer Overrides.given
  rw [last?_say, last?_say]

theorem last?_layer_name (o : Overrides) (x : Setting) : last? o.layer x.name = o.said? x := by
  simp only [last?_layer, Setting.name_inj]
  rfl

theorem mem_names_layer_iff (o : Overrides) {name : String} (h : ∀ x : Setting, name ≠ x.name) :
    name ∈ names o.layer ↔ name ∈ names o.given := by
  rw [← Data.last?_isSome_iff, ← Data.last?_isSome_iff, last?_layer,
    if_neg fun hand => h .verbosity hand.1, if_neg fun hand => h .verbosity hand.1]

/-! ## All places -/

theorem field?_merge (layers : List Layer) (name : String) :
    field? (merge layers) name = last? layers.flatten name := by
  have hfold (all : Layer) : field? (layers.foldl update all) name =
      (last? layers.flatten name).or (field? all name) := by
    induction layers generalizing all with
    | nil => rfl
    | cons layer layers ih =>
      rw [List.foldl_cons, ih, Data.field?_update, List.flatten_cons, Data.last?_append,
        Option.or_assoc]
  exact (hfold []).trans Option.or_none

theorem mem_names_merge (layers : List Layer) (name : String) :
    name ∈ names (merge layers) ↔ name ∈ names layers.flatten := by
  rw [← Data.field?_isSome_iff, field?_merge, Data.last?_isSome_iff]

theorem nodup_names_merge (layers : List Layer) : (names (merge layers)).Nodup := by
  have hfold (all : Layer) (h : (names all).Nodup) : (names (layers.foldl update all)).Nodup := by
    induction layers generalizing all with
    | nil => exact h
    | cons layer layers ih => exact ih _ (Data.nodup_names_update h layer)
  exact hfold [] List.nodup_nil

variable {s : Sources} {files : Files} {settings : Settings}

theorem exists_reads_of_load (h : load s = .ok settings) : ∃ files, s.Reads files := by
  obtain ⟨layers, hlayers, -⟩ := exists_of_bind_eq_ok h
  obtain ⟨home, hhome, h⟩ := exists_of_bind_eq_ok hlayers
  obtain ⟨project, hproject, h⟩ := exists_of_bind_eq_ok h
  obtain ⟨named, hnamed, h⟩ := exists_of_bind_eq_ok h
  obtain ⟨layer, hlayer, -⟩ := exists_of_bind_eq_ok h
  -- the caller cannot fail, so the environment is the last place to look at
  have hvariables := exists_readVariables_iff.mp ⟨layer, exists_of_mapError_eq_ok hlayer⟩
  exact ⟨⟨home, project, named⟩, Sources.reads_iff.mpr
    ⟨hhome, hproject, hnamed, fun x => hvariables x x.mem_all⟩⟩

/-- The table that all places together give. -/
theorem load_of_reads (h : s.Reads files) : ∃ layer, load s = (ofLayer layer).mapError .problem ∧
    (names layer).Nodup ∧ (∀ x : Setting, field? layer x.name = s.value? files x) ∧
    ∀ name, (name ∈ names layer ∧ ∀ x : Setting, name ≠ x.name) ↔ s.IsUnknown files name := by
  obtain ⟨hhome, hproject, hnamed, henvironment⟩ := Sources.reads_iff.mp h
  obtain ⟨fromVariables, hvariables⟩ := exists_readVariables_iff.mpr fun x _ => henvironment x
  refine ⟨merge [files.home, files.project, files.named, fromVariables, s.overrides.layer], ?_,
    nodup_names_merge _, fun x => ?_, fun name => ?_⟩
  · unfold load layers
    rw [hhome, hproject, hnamed, hvariables]
    rfl
  · rw [field?_merge]
    simp only [List.flatten_cons, List.flatten_nil, List.append_nil, Data.last?_append,
      Option.or_assoc, last?_layer_name, last?_readVariables hvariables, if_pos x.mem_all]
    rfl
  · unfold Sources.IsUnknown
    rw [and_comm, mem_names_merge]
    refine and_congr_right fun hname => ?_
    -- the environment only gives names of settings
    have hvariable : name ∉ names fromVariables := fun hmem =>
      (exists_of_mem_readVariables hvariables hmem).elim hname
    simp only [List.flatten_cons, List.flatten_nil, List.append_nil, Data.names_append,
      List.mem_append, mem_names_layer_iff s.overrides hname, hvariable, false_or]

/-! ## From the table to the settings -/

/-- There is a table, or there is nothing. -/
def IsTableOrAbsent (value? : Option Data) : Prop :=
  ∀ value, value? = some value → ∃ fields, value = .table fields

/-- The names of a layer that no setting has. -/
def unknownNames (layer : Layer) : List String :=
  (names layer).filter fun name => (Setting.ofName? name).isNone

theorem mem_unknownNames_iff {layer : Layer} {name : String} :
    name ∈ unknownNames layer ↔ name ∈ names layer ∧ ∀ x : Setting, name ≠ x.name := by
  unfold unknownNames
  rw [List.mem_filter, Option.isNone_iff_eq_none, Setting.ofName?_eq_none_iff]

theorem ofLayer_eq {layer : Layer}
    (h : IsTableOrAbsent (field? layer Setting.compilerOptions.name)) :
    ofLayer layer =
      if !(unknownNames layer).isEmpty then .error (.unknownSettings (unknownNames layer))
      else (ofFields layer).mapError Fault.problem := by
  unfold ofLayer
  cases hvalue : field? layer Setting.compilerOptions.name with
  | none => rfl
  | some value =>
    obtain ⟨fields, rfl⟩ := h value hvalue
    rfl

theorem ofLayer_of_not_isTableOrAbsent {layer : Layer}
    (h : ¬ IsTableOrAbsent (field? layer Setting.compilerOptions.name)) :
    ∃ value, ofLayer layer =
      .error (.invalidSetting Setting.compilerOptions.name value "must be a table") := by
  unfold ofLayer
  cases hvalue : field? layer Setting.compilerOptions.name with
  | none =>
    rw [hvalue] at h
    exact absurd (fun _ heq => nomatch heq) h
  | some value =>
    rw [hvalue] at h
    cases value with
    | table fields => exact absurd (fun value heq => ⟨fields, (Option.some.inj heq).symm⟩) h
    | _ => exact ⟨_, rfl⟩

theorem isTableOrAbsent_of_ofLayer {layer : Layer} {settings : Settings}
    (h : ofLayer layer = .ok settings) :
    IsTableOrAbsent (field? layer Setting.compilerOptions.name) := by
  by_contra hnot
  obtain ⟨value, herror⟩ := ofLayer_of_not_isTableOrAbsent hnot
  exact nomatch herror.symm.trans h

variable {layer : Layer}

theorem value_of_ofLayer (h : ofLayer layer = .ok settings) (x : Setting) :
    settings.value x = (field? layer x.name).getD x.default := by
  rw [ofLayer_eq (isTableOrAbsent_of_ofLayer h)] at h
  split at h
  · cases h
  · exact (value_of_ofValues (exists_of_mapError_eq_ok h) x).1

theorem exists_ofLayer_iff : (∃ settings, ofLayer layer = .ok settings) ↔
    IsTableOrAbsent (field? layer Setting.compilerOptions.name) ∧ unknownNames layer = [] ∧
      ∀ x : Setting, Passes x ((field? layer x.name).getD x.default) := by
  constructor
  · rintro ⟨settings, h⟩
    have htable := isTableOrAbsent_of_ofLayer h
    rw [ofLayer_eq htable] at h
    split at h
    · cases h
    · rename_i hknown
      refine ⟨htable, by simpa using hknown, ?_⟩
      exact exists_ofValues_iff.mp ⟨settings, exists_of_mapError_eq_ok h⟩
  · rintro ⟨htable, hknown, hpasses⟩
    obtain ⟨settings, h⟩ := exists_ofValues_iff.mpr hpasses
    rw [ofLayer_eq htable, hknown]
    exact ⟨settings, congrArg (Except.mapError Fault.problem) h⟩

theorem ofLayer_eq_unknownSettings_iff
    (htable : IsTableOrAbsent (field? layer Setting.compilerOptions.name)) {names : List String} :
    ofLayer layer = .error (.unknownSettings names) ↔
      unknownNames layer ≠ [] ∧ names = unknownNames layer := by
  rw [ofLayer_eq htable]
  split
  · rename_i hunknown
    simp at hunknown
    simp [hunknown, eq_comm]
  · rename_i hknown
    refine iff_of_false (fun h => ?_) fun h => h.1 (by simpa using hknown)
    -- a fault of a value is no refusal of names
    obtain ⟨fault, -, hfault⟩ := exists_of_mapError_eq_error h
    cases fault <;> cases hfault

/-! ## Loading -/

theorem value_of_load (h : load s = .ok settings) (hreads : s.Reads files) (x : Setting) :
    settings.value x = s.value files x := by
  obtain ⟨layer, hload, -, hfields, -⟩ := load_of_reads hreads
  rw [hload] at h
  rw [value_of_ofLayer (exists_of_mapError_eq_ok h), hfields]
  rfl

theorem exists_load_iff (hreads : s.Reads files) : (∃ settings, load s = .ok settings) ↔
    IsTableOrAbsent (s.value? files .compilerOptions) ∧ (∀ name, ¬ s.IsUnknown files name) ∧
      ∀ x, Passes x (s.value files x) := by
  obtain ⟨layer, hload, -, hfields, hnames⟩ := load_of_reads hreads
  have hlayer : (∃ settings, load s = .ok settings) ↔ ∃ settings, ofLayer layer = .ok settings := by
    rw [hload]
    exact exists_congr fun settings => ⟨exists_of_mapError_eq_ok, fun h => by rw [h]; rfl⟩
  have hknown : unknownNames layer = [] ↔ ∀ name, ¬ s.IsUnknown files name := by
    rw [List.eq_nil_iff_forall_not_mem]
    exact forall_congr' fun name => not_congr (mem_unknownNames_iff.trans (hnames name))
  rw [hlayer, exists_ofLayer_iff, hknown]
  simp only [hfields]
  rfl

/-! ## Sources

A workspace with settings files, one in the home directory, one of the project and one more, and
sources in which a variable and the caller say something as well.
-/

/-- A workspace with these files. -/
def withFiles (files : List (Location × String)) : Workspace :=
  ⟨⟨[⟨["work"]⟩, ⟨["home"]⟩], files.map fun f => (f.1, Utf8.encode f.2.toList)⟩, ⟨["work"]⟩,
    ⟨["home"]⟩, ""⟩

/-- A file with the text of a document is one. -/
theorem documents_of_find? {w : Workspace} {path : Path} {text : String} {layer : Layer}
    (hfind : w.find? path = .ok (some (.file (Utf8.encode text.toList))))
    (hparse : Toml.read? text.toList = some layer) : Documents w path layer :=
  ⟨_, text.toList, hfind, Utf8.decode_encode _, hparse⟩

/-- A value that is a text or a list of texts. -/
inductive Plain
  | text (s : String)
  | texts (items : List String)
  deriving DecidableEq

/-- The value that it is. -/
def Plain.toData : Plain → Data
  | text s => .text s
  | texts items => .list (items.map .text)

/-- The text that a value is. -/
def plainText? : Data → Option String
  | .text s => some s
  | _ => none

/-- The text or the list of texts that a value is. -/
def plain? : Data → Option Plain
  | .text s => some (.text s)
  | .list items => (items.mapM plainText?).map .texts
  | _ => none

/-- The fields of a layer that has only such values. Unlike values of all kinds, these can be
compared. -/
def plainFields? (layer : Layer) : Option (List (String × Plain)) :=
  layer.mapM fun field => (plain? field.2).map fun value => (field.1, value)

theorem eq_map_of_mapM_eq_some {α β : Type} {f : α → Option β} {g : β → α}
    (h : ∀ a b, f a = some b → a = g b) {xs : List α} {ys : List β} (hxs : xs.mapM f = some ys) :
    xs = ys.map g := by
  induction xs generalizing ys with
  | nil =>
    obtain rfl := Option.some.inj hxs
    rfl
  | cons x xs ih =>
    rw [List.mapM_cons] at hxs
    obtain ⟨y, hy, hxs⟩ := Option.bind_eq_some_iff.mp hxs
    obtain ⟨rest, hrest, hys⟩ := Option.bind_eq_some_iff.mp hxs
    obtain rfl := Option.some.inj hys
    rw [h x y hy, ih hrest, List.map_cons]

theorem eq_text_of_plainText? {value : Data} {s : String} (h : plainText? value = some s) :
    value = .text s := by
  cases value with
  | text s => rw [Option.some.inj h]
  | _ => cases h

theorem eq_toData_of_plain? {value : Data} {p : Plain} (h : plain? value = some p) :
    value = p.toData := by
  cases value with
  | text s =>
    obtain rfl := Option.some.inj h
    rfl
  | list items =>
    obtain ⟨texts, htexts, rfl⟩ := Option.map_eq_some_iff.mp h
    exact congrArg Data.list (eq_map_of_mapM_eq_some (fun _ _ => eq_text_of_plainText?) htexts)
  | _ => cases h

/-- A text is read as these fields if it is read as fields like them. -/
theorem read?_of_plain {text : List Char} (fields : List (String × Plain))
    (h : (Toml.read? text).bind plainFields? = some fields) :
    Toml.read? text = some (fields.map fun field => (field.1, field.2.toData)) := by
  obtain ⟨layer, hlayer, hfields⟩ := Option.bind_eq_some_iff.mp h
  rw [hlayer]
  refine congrArg some (eq_map_of_mapM_eq_some ?_ hfields)
  rintro ⟨name, value⟩ field hfield
  obtain ⟨p, hp, rfl⟩ := Option.map_eq_some_iff.mp hfield
  exact congrArg (Prod.mk name) (eq_toData_of_plain? hp)

def homeText : String := "extensions = [\".mts\"]\ntsconfig = \"h\"\n"

def projectText : String := "tsconfig = \"p\"\ntsc_command = \"p\"\n"

def namedText : String := "tsc_command = \"n\"\noutput_format = \"json\"\n"

theorem read?_homeText : Toml.read? homeText.toList =
    some [("extensions", .list [.text ".mts"]), ("tsconfig", .text "h")] :=
  read?_of_plain [("extensions", .texts [".mts"]), ("tsconfig", .text "h")] (by decide +kernel)

theorem read?_projectText : Toml.read? projectText.toList =
    some [("tsconfig", .text "p"), ("tsc_command", .text "p")] :=
  read?_of_plain [("tsconfig", .text "p"), ("tsc_command", .text "p")] (by decide +kernel)

theorem read?_namedText : Toml.read? namedText.toList =
    some [("tsc_command", .text "n"), ("output_format", .text "json")] :=
  read?_of_plain [("tsc_command", .text "n"), ("output_format", .text "json")] (by decide +kernel)

/-- Sources in which each place says something that the next higher one says as well, and something
that none of the higher ones does. -/
def sampleSources : Sources :=
  ⟨withFiles [(⟨["home", ".ts-expect-error.toml"]⟩, homeText),
      (⟨["work", "ts-expect-error.toml"]⟩, projectText), (⟨["work", "more.toml"]⟩, namedText)],
    some (.ofString "more.toml"),
    [("TS_EXPECT_ERROR_OUTPUT_FORMAT", "github"), ("TS_EXPECT_ERROR_VERBOSITY", "loud")],
    ⟨[("tsconfig", .null)], true, true⟩⟩

def sampleFiles : Files :=
  ⟨[("extensions", .list [.text ".mts"]), ("tsconfig", .text "h")],
    [("tsconfig", .text "p"), ("tsc_command", .text "p")],
    [("tsc_command", .text "n"), ("output_format", .text "json")]⟩

theorem variableText?_sample (x : Setting) : variableText? sampleSources.environment x =
    if x = .style then some "github" else if x = .verbosity then some "loud" else none := by
  cases x <;> decide +kernel

theorem reads_sample : sampleSources.Reads sampleFiles where
  home := .inr (documents_of_find? rfl read?_homeText)
  project := .inr (documents_of_find? rfl read?_projectText)
  named := .inr ⟨_, rfl, documents_of_find? rfl read?_namedText⟩
  environment := by
    rintro x (rfl | rfl) text htext
    · exact nomatch (variableText?_sample .unexpected).symm.trans htext
    · exact nomatch (variableText?_sample .timeout).symm.trans htext

theorem value?_sample (x : Setting) : sampleSources.value? sampleFiles x =
    match x with
    | .extensions => some (.list [.text ".mts"])
    | .compilerConfig => some (.text "p")
    | .command => some (.text "n")
    | .style => some (.text "github")
    | .verbosity => some (.text "quiet")
    | _ => none := by
  unfold Sources.value? parsed?
  -- looking up the variables again would take as long as the lemma has taken
  rw [variableText?_sample]
  cases x <;> rfl

theorem not_isUnknown_sample (name : String) : ¬ sampleSources.IsUnknown sampleFiles name := by
  rintro ⟨hname, hgiven⟩
  have hhome : names sampleFiles.home =
      [Setting.extensions.name, Setting.compilerConfig.name] := rfl
  have hproject : names sampleFiles.project =
      [Setting.compilerConfig.name, Setting.command.name] := rfl
  have hnamed : names sampleFiles.named = [Setting.command.name, Setting.style.name] := rfl
  have hcaller : names sampleSources.overrides.given = [] := rfl
  rw [hhome, hproject, hnamed, hcaller] at hgiven
  simp [hname] at hgiven

theorem exists_load_sample : ∃ settings, load sampleSources = .ok settings := by
  refine (exists_load_iff reads_sample).mpr ⟨?_, not_isUnknown_sample, fun x => ?_⟩
  · rw [value?_sample]
    exact nofun
  · unfold Sources.value
    rw [value?_sample]
    cases x with
    | style => exact ⟨.github, rfl⟩
    | command => exact ⟨"n", rfl, 'n', by decide, rfl⟩
    | verbosity => exact ⟨.quiet, rfl⟩
    | extensions => exact ⟨[".mts"], by decide, rfl, by decide⟩
    | compilerConfig => trivial
    | timeout | unexpected | excluded | compilerOptions => exact passes_default _

end ExpectedDiagnostics.Settings
