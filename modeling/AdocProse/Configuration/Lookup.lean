import AdocProse.Configuration.Decoding

/-!
Where the configuration comes from: the file that is asked for, else the nearest file in the
directory of the document or above it, else the user's file, else the defaults. Only the file that
is asked for must be there and valid; any other that cannot be used is ignored with a warning.
-/

namespace AdocProse

inductive ConfigurationError where
  | io (kind : IoKind)
  | invalid (path : Path)
  deriving DecidableEq

namespace ConfigurationError

def kind : ConfigurationError → IoKind
  | .io kind => kind
  | .invalid _ => .invalidData

def text : ConfigurationError → String
  | .io kind => kind.text
  | .invalid path => "invalid config " ++ path.text ++ ": TOML parse error"

end ConfigurationError

namespace Configuration

/-- The names of project files, the hidden one first. -/
def names : List String :=
  [".languagetool-asciidoc.toml", "languagetool-asciidoc.toml"]

def readFile (fs : FileSystem) (workingDir : Location) (p : Path) :
    Except ConfigurationError Settings := do
  let bytes ← (fs.read workingDir p).mapError ConfigurationError.io
  match Utf8.decode? bytes with
  | none => .error (.io .invalidData)
  | some text =>
    match Settings.ofText? text with
    | none => .error (.invalid p)
    | some c => .ok c

def candidates (startDir : Path) : List Path :=
  startDir.ancestors.flatMap fun dir => names.map fun name => dir.join name

def projectFile? (w : Surroundings) (fs : FileSystem) (startDir : Path) : Option Path :=
  (candidates startDir).find? (fs.isFile w.workingDir)

def userPlace? (w : Surroundings) : Option Path :=
  w.configDir?.map fun dir => (dir.join "languagetool-asciidoc").join "config.toml"

def userFile? (w : Surroundings) (fs : FileSystem) : Option Path :=
  (userPlace? w).filter (fs.isFile w.workingDir)

def loadFile (w : Surroundings) (p : Path) : Action ConfigurationError Settings := do
  let settings ← Action.ofExcept (readFile (← Action.files) w.workingDir p)
  Action.inform ("Loaded config from: " ++ p.text)
  pure settings

/-- The settings of the first file, if any, that can be used. -/
def firstUsable (w : Surroundings) : List Path →
    Action ConfigurationError (Settings × Option Path)
  | [] => pure ({}, none)
  | p :: ps => do
    match ← Action.attempt (loadFile w p) with
    | .ok settings => pure (settings, some p)
    | .error e => do
      Action.warn ("Ignoring config " ++ p.text ++ ": " ++ e.text)
      firstUsable w ps

def load (w : Surroundings) (explicit : Option Path) (startDir : Path) :
    Action ConfigurationError (Settings × Option Path) := do
  match explicit with
  | some p => do
    let settings ← loadFile w p
    pure (settings, some p)
  | none => do
    let fs ← Action.files
    firstUsable w ((projectFile? w fs startDir).toList ++ (userFile? w fs).toList)

end Configuration

end AdocProse
