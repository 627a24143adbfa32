import AdocProse.Parser.Java
import AdocProse.Parser.Settings

/-!
Running the parser. What it writes is captured in two temporary files, which are removed whatever
happens. If it ends with code 0 its output is the tree; else its errors are the message.
-/

namespace AdocProse

structure ParserCommand where
  program : Path
  jvmArgs : List String
  jar : Path
  tempDir : Option Path
  deriving DecidableEq

namespace ParserCommand

def arguments (c : ParserCommand) (input : Path) : List String :=
  c.jvmArgs ++ ["-jar", c.jar.text, input.text]

/-- A program is a script, which names its interpreter behind `#!`, or machine code. -/
def isProgram (content : List UInt8) : Bool :=
  [0x23, 0x21].isPrefixOf content || [0x7F, 0x45, 0x4C, 0x46].isPrefixOf content

def executable (w : Surroundings) (fs : FileSystem) (p : Path) : Except IoKind Location := do
  match ← fs.lookup w.workingDir p with
  | (l, .file content true) => if isProgram content then .ok l else .error .notAProgram
  | (_, .file _ false) => .error .permissionDenied
  | (_, .directory) => .error .permissionDenied

/-- Whether the search goes on behind a path that failed. -/
def isPassedOver : IoKind → Bool
  | .notFound => true
  | .notADirectory => true
  | .permissionDenied => true
  | _ => false

/-- The first of the paths with a program, else the reason that is reported: that some file may not
be executed, if so, or why the last path failed. -/
def firstExecutable (w : Surroundings) (fs : FileSystem) :
    IoKind → List Path → Except IoKind Location
  | e, [] => .error e
  | e, p :: ps =>
    match executable w fs p with
    | .ok l => .ok l
    | .error e' =>
      if isPassedOver e' then firstExecutable w fs (if e = .permissionDenied then e else e') ps
      else .error e'

/-- A zero character cannot be handed to a program. -/
def isPassable (s : String) : Bool :=
  !s.toList.contains '\x00'

/-- A name without slashes is looked up in the search path, where an empty entry is the working
directory. -/
def locate (w : Surroundings) (fs : FileSystem) (program : Path) : Except IoKind Location :=
  if program.text.toList = [] then .error .notFound
  else if program.text.toList.contains '/' then executable w fs program
  else
    let dirs := Pieces.split ':' ((w.valueOf "PATH").getD "/bin:/usr/bin").toList
    firstExecutable w fs .notFound (dirs.map fun dir =>
      (Path.mk (if dir = [] then "." else String.ofList dir)).join program.text)

def captureDir (c : ParserCommand) (w : Surroundings) : Path :=
  c.tempDir.getD w.scratchDir

def captureFile (c : ParserCommand) (w : Surroundings) : Action ParseError Location := do
  let fs ← Action.files
  let dir := c.captureDir w
  match fs.freshLocation w.workingDir dir [] with
  | .error e => throw (.io e (some (dir.join (FileSystem.freshName []))))
  | .ok l => do
    Action.setFiles (fs.put l (.file [] false))
    pure l

/-- Removes a capture file after an action, whether that failed or not. -/
def releasing {α : Type} (l : Location) (a : Action ParseError α) : Action ParseError α := fun s =>
  match a s with
  | .ok x s => .ok x { s with files := s.files.erase l }
  | .error e s => .error e { s with files := s.files.erase l }

def write (l : Location) (bytes : List UInt8) : Action ParseError Unit := do
  Action.setFiles ((← Action.files).put l (.file bytes false))

def content (l : Location) : Action ParseError (List UInt8) := do
  match (← Action.files).get? l with
  | some (.file bytes _) => pure bytes
  | _ => throw (.io .notFound none)

def launch (c : ParserCommand) (w : Surroundings) (input : Path) (output errors : Location) :
    Action ParseError Ending := do
  let fs ← Action.files
  if (c.program.text :: c.arguments input).all isPassable then
    match locate w fs c.program with
    | .error e => throw (.spawnFailed c.program e)
    | .ok l => do
      let outcome := w.program l (c.arguments input)
      Action.record [.started l (c.arguments input)]
      write output outcome.output
      write errors outcome.errors
      pure outcome.ending
  else throw (.spawnFailed c.program .invalidInput)

def result (ending : Ending) (output errors : Location) : Action ParseError Node := do
  if ending = .exited 0 then
    let bytes ← content output
    Action.ofExcept ((Node.ofJson bytes).mapError ParseError.tree)
  else
    let bytes ← content errors
    throw (.parserFailed ending.code? (Utf8.decodeLossy bytes))

def run (c : ParserCommand) (w : Surroundings) (input : Path) : Action ParseError Node := do
  let output ← c.captureFile w
  releasing output do
    let errors ← c.captureFile w
    releasing errors do
      let ending ← c.launch w input output errors
      result ending output errors

end ParserCommand

end AdocProse
