import ExpectedDiagnostics.Settings
import ExpectedDiagnostics.Toml.Reader
import ExpectedDiagnostics.Workspace

/-!
# Layers of settings

Settings come from several places: a file in the home directory, a file in the directory in which
the program runs, a file that is named, the environment, and what the caller says. Each place is a
layer, a table of values by name; where two layers give a value for the same name, the later one
counts.
-/

namespace ExpectedDiagnostics.Settings

/-- A table of values by name. -/
abbrev Layer := List (String × Data)

/-- What the caller says: values by name, of which no value is the same as not being named, and
whether the log should tell much or little. Little goes before much. -/
structure Overrides where
  values : Layer
  verbose : Bool
  quiet : Bool

/-- Where settings come from: the files of a workspace, a file that is named, the variables of the
environment, and the caller. -/
structure Sources where
  workspace : Workspace
  config : Option Path
  environment : List (String × String)
  overrides : Overrides

/-! ## Files -/

/-- The name of a settings file. -/
def fileName : String := "ts-expect-error.toml"

/-- The settings file in the home directory. -/
def homeFile (w : Workspace) : Path :=
  (w.home.step ("." ++ fileName)).toPath

/-- The settings file in the directory in which the program runs. -/
def projectFile (w : Workspace) : Path :=
  (w.directory.step fileName).toPath

/-- What is said of a settings file that cannot be read, and why it cannot. -/
def unreadable (path : Path) (cause : String) : Problem :=
  .other .configuration ("Invalid config file '" ++ path.toString ++ "': " ++ cause) []

/-- What is said of a text that is no document. Where it goes wrong is not told. -/
def noDocument : String := "no TOML document"

/-- The layer of a settings file. -/
def readFile (w : Workspace) (path : Path) : Except Failure Layer :=
  match w.readOctets path with
  | .error f => .error (.problem (unreadable path f.message))
  | .ok octets =>
    match Utf8.decode octets with
    | .error f => .error (.encoding f)
    | .ok text => (Toml.read? text).elim (.error (.problem (unreadable path noDocument))) .ok

/-- The layer of a settings file that need not be there. -/
def readOptional (w : Workspace) (path : Path) : Except Failure Layer := do
  if (← w.find? path).isSome then readFile w path else return []

/-- The layer of a settings file that is named, if one is. -/
def readNamed (w : Workspace) : Option Path → Except Failure Layer
  | none => .ok []
  | some path => do
    if (← w.find? path).isSome then readFile w path
    else throw (.problem (.missingSettingsFile path))

/-! ## Environment and caller -/

/-- What the environment says of a setting. -/
def readVariable (environment : List (String × String)) (s : Setting) :
    Except Problem (Option Data) :=
  match environment.lookup s.variableName with
  | none => .ok none
  | some text =>
    (s.form.read text).mapError fun reason => .invalidSetting s.variableName (.text text) reason

/-- The layer of the environment for some settings. -/
def readVariables (environment : List (String × String)) : List Setting → Except Problem Layer
  | [] => .ok []
  | s :: settings => do
    let value ← readVariable environment s
    let layer ← readVariables environment settings
    return (value.toList.map fun v => (s.name, v)) ++ layer

/-- Tells whether there is a value. -/
def isGiven : Data → Bool
  | .null => false
  | _ => true

/-- The layer of the caller. -/
def Overrides.layer (o : Overrides) : Layer :=
  let say (v : Verbosity) (on : Bool) (layer : Layer) : Layer :=
    if on then Data.setField layer Setting.verbosity.name (.text v.name) else layer
  (say .quiet o.quiet (say .verbose o.verbose o.values)).filter (isGiven ·.2)

/-! ## All layers -/

/-- All layers, the first one counting least. -/
def layers (s : Sources) : Except Failure (List Layer) := do
  let home ← readOptional s.workspace (homeFile s.workspace)
  let project ← readOptional s.workspace (projectFile s.workspace)
  let named ← readNamed s.workspace s.config
  let environment ← (readVariables s.environment Setting.all).mapError .problem
  return [home, project, named, environment, s.overrides.layer]

/-- One layer for several. -/
def merge (layers : List Layer) : Layer :=
  layers.foldl Data.update []

/-- The settings that a layer gives. Compiler options have to be a table, and every name has to be
that of a setting. -/
def ofLayer (layer : Layer) : Except Problem Settings := do
  match Data.field? layer Setting.compilerOptions.name with
  | none | some (.table _) => pure ()
  | some value =>
    throw (.invalidSetting Setting.compilerOptions.name value "must be a table")
  let unknown := (layer.map (·.1)).filter fun name => (Setting.ofName? name).isNone
  if !unknown.isEmpty then throw (.unknownSettings unknown)
  (ofFields layer).mapError Fault.problem

/-- The settings that all places together give. -/
def load (s : Sources) : Except Failure Settings := do
  let layers ← layers s
  (ofLayer (merge layers)).mapError .problem

end ExpectedDiagnostics.Settings
