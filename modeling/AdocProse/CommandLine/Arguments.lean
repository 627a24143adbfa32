import AdocProse.System.Path

/-!
The words of a command line. `--config` may stand before the command or behind it, once at each
place, and the one behind the command wins. Two dashes end the options of a command.
-/

namespace AdocProse.CommandLine

inductive Command where
  | ast
  | check
  deriving DecidableEq

def Command.ofName? (name : String) : Option Command :=
  if name = "ast" then some .ast
  else if name = "check" then some .check
  else none

inductive Invocation where
  | version
  | help
  | run (command : Command) (file : Path) (config : Option Path)
  deriving DecidableEq

inductive Word where
  | config (value : Option String)
  | version
  | help
  | endOfOptions
  | unknown
  | plain (s : String)
  deriving DecidableEq

namespace Word

/-- A name behind two dashes, with its value behind an equals sign. -/
def long (name : List Char) (value : Option String) : Word :=
  if name = "config".toList then .config value
  else if name = "version".toList ∧ value = none then .version
  else if name = "help".toList ∧ value = none then .help
  else .unknown

def ofString (s : String) : Word :=
  match s.toList with
  | ['-', '-'] => .endOfOptions
  | '-' :: '-' :: cs =>
    match cs.span (· != '=') with
    | (name, []) => long name none
    | (name, _ :: value) => long name (some (String.ofList value))
  | '-' :: c :: _ => if c = 'V' then .version else if c = 'h' then .help else .unknown
  | _ => .plain s

end Word

/-- The value of an option and the words behind it. A value is not empty, and only behind an equals
sign may it look like an option. -/
def optionValue : Option String → List String → Option (Path × List String)
  | some value, words => if value = "" then none else some (⟨value⟩, words)
  | none, [] => none
  | none, word :: words =>
    match Word.ofString word with
    | .plain value => if value = "" then none else some (⟨value⟩, words)
    | _ => none

/-- The words behind a command: one file, and at most one configuration. -/
def readFile (command : Command) (outer : Option Path) :
    Nat → Option Path → Option Path → List String → Option Invocation
  | 0, _, _, _ => none
  | _, _, none, [] => none
  | _, config, some file, [] => some (.run command file (config.or outer))
  | fuel + 1, config, file, word :: words =>
    let setFile (s : String) (words : List String) : Option Invocation :=
      if s = "" ∨ file.isSome then none
      else readFile command outer fuel config (some ⟨s⟩) words
    match Word.ofString word with
    | .plain s => setFile s words
    | .config value =>
      match optionValue value words with
      | none => none
      | some (path, words) =>
        if config.isSome then none else readFile command outer fuel (some path) file words
    | .endOfOptions =>
      match words with
      | [] => readFile command outer fuel config file []
      | [s] => setFile s []
      | _ => none
    | .help => some .help
    | .version => none
    | .unknown => none

/-- Help is there on the whole or on one command, of which `help` is one. -/
def isHelpTopic : List String → Bool
  | [] => true
  | [name] => (Command.ofName? name).isSome || name == "help"
  | _ => false

/-- The words of a command line; none stands for a mistake in its use. -/
def readWords : Nat → Option Path → List String → Option Invocation
  | 0, _, _ => none
  | _, _, [] => none
  | fuel + 1, config, word :: words =>
    match Word.ofString word with
    | .plain name =>
      match Command.ofName? name with
      | some command => readFile command config (words.length + 1) none none words
      | none => if name = "help" ∧ isHelpTopic words then some .help else none
    | .config value =>
      match optionValue value words with
      | none => none
      | some (path, words) => if config.isSome then none else readWords fuel (some path) words
    | .version => some .version
    | .help => some .help
    | .endOfOptions => none
    | .unknown => none

def Invocation.ofWords? (words : List String) : Option Invocation :=
  readWords (words.length + 1) none words

end AdocProse.CommandLine
