import AdocProse.Check.Server
import AdocProse.Parser.Command

/-!
From a document to its tree, and from its tree to the findings. Every stage runs only if those
before it succeeded.
-/

namespace AdocProse

def ParserSettings.parse (c : ParserSettings) (w : Surroundings) (input : Path) :
    Action ParseError Node := do
  let fs ← Action.files
  match fs.lookup w.workingDir input with
  | .error e => throw (.io e none)
  | .ok _ => do
    let jar ← c.ensureJar w (Fetcher.http w)
    let java ← Action.ofExcept (Java.find w (← Action.files) c.java)
    let command : ParserCommand := ⟨java, c.jvmArgs, jar, c.tempDir⟩
    command.run w input

structure Settings where
  parser : ParserSettings := {}
  checker : CheckSettings := {}
  deriving DecidableEq

inductive DocumentError where
  | parse (e : ParseError)
  | check (e : CheckError)
  deriving DecidableEq

def DocumentError.text : DocumentError → String
  | .parse e => e.text
  | .check e => e.text

namespace Settings

def parse (c : Settings) (w : Surroundings) (input : Path) : Action DocumentError Node :=
  Action.mapError .parse (c.parser.parse w input)

/-- The checker of the settings; what it ignores is logged. -/
def newChecker {ε : Type} (c : CheckSettings) : Action ε Checker := do
  Action.record ((Checker.warnings c).map Event.warning)
  pure (Checker.ofSettings c)

def check (c : Settings) (w : Surroundings) (input : Path) :
    Action DocumentError (List Finding) := do
  let tree ← c.parse w input
  let checker ← newChecker c.checker
  let findings ← Action.mapError .check (checker.checkTree (Server.engine w c.checker.server) tree)
  Action.inform (input.text ++ ": " ++ Decimal.text findings.length ++ " potential error(s)")
  pure findings

end Settings

end AdocProse
