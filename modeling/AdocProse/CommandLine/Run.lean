import AdocProse.CommandLine.Arguments
import AdocProse.CommandLine.Report

/-!
Running a command. The output is printed only when all of it is there.
-/

namespace AdocProse.CommandLine

def versionText : String :=
  "languagetool-asciidoc 0.1.0\n"

def usageText : String :=
  "Usage: languagetool-asciidoc [--config <CONFIG>] <ast|check> <FILE>\n"

def success (output : String) : Report :=
  ⟨0, output, ""⟩

def startDir (file : Path) : Path :=
  match file.parent? with
  | some dir => if dir.text = "" then ⟨"."⟩ else dir
  | none => ⟨"."⟩

def output (w : Surroundings) (settings : Settings) (file : Path) :
    Command → Action DocumentError String
  | .ast => Node.outline <$> settings.parse w file
  | .check => do
    let findings ← settings.check w file
    pure (String.join (findings.map fun f => f.text ++ "\n"))

def heading (file : Path) : Command → String
  | .ast => "failed to parse " ++ file.text
  | .check => "failed to check " ++ file.text

def execute (w : Surroundings) (command : Command) (file : Path) (config : Option Path) :
    Action Report Report := do
  let (settings, _) ← Action.mapError (fun e => failure e.text [])
    (Configuration.load w config (startDir file))
  let text ← Action.mapError (fun e => failure (heading file command) (e.text :: sources e))
    (output w settings file command)
  pure (success text)

def run (w : Surroundings) (words : List String) (s : Session) : Report × Session :=
  match Invocation.ofWords? words with
  | none => (⟨2, "", usageText⟩, s)
  | some .version => (success versionText, s)
  | some .help => (success usageText, s)
  | some (.run command file config) =>
    match execute w command file config s with
    | .ok report s => (report, s)
    | .error report s => (report, s)

end AdocProse.CommandLine
