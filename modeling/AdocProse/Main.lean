import AdocProse.CommandLine.Footprint

/-!
The program. It takes the variables and the files that a run looks at, and prints the report of the
run. It starts no programs and reaches no servers: a run that gets as far as that ends there.
-/

open AdocProse

namespace AdocProse.Program

def keys : List String :=
  ["HOME", "PATH", "JAVA_HOME", "XDG_CACHE_HOME", "XDG_CONFIG_HOME", "TMPDIR"]

def readVariables : IO (List (String × String)) := do
  let values ← keys.mapM fun key => do
    let value ← IO.getEnv key
    return value.map fun s => (key, s)
  return values.filterMap id

def refusal : Outcome where
  output := []
  errors := Utf8.encode "programs cannot be started"
  ending := .exited 127

def surroundings : IO Surroundings := do
  let values ← readVariables
  let workingDir ← IO.currentDir
  return {
    valueOf := fun key => values.lookup key
    workingDir := FileSystem.spelled [] ⟨workingDir.toString⟩
    accountHome := none
    program := fun _ _ => refusal
    serve := fun _ _ => none }

/-- The bytes of a file if they are wanted, else the first few. A directory cannot be read either
way. -/
def readBytes (wanted : Bool) (p : Path) : IO (List UInt8) := do
  if wanted then return (← IO.FS.readBinFile p.text).toList
  let start ← IO.FS.withFile p.text .read fun handle => handle.read 4
  return start.toList

def probe (wanted : Bool) (p : Path) : IO (Option Entry) := do
  match ← (readBytes wanted p).toBaseIO with
  | .ok bytes => return some (.file bytes true)
  | .error (.inappropriateType _ 21 _) => return some .directory
  | .error _ => return none

def addFiles (workingDir : Location) (wanted : Bool) (ps : List Path) (fs : FileSystem) :
    IO FileSystem :=
  (ps.flatMap Path.ancestors).foldlM (fun fs p => do
    let l := FileSystem.spelled workingDir p
    if (fs.get? l).isSome then return fs
    match ← probe wanted p with
    | some e => return fs.place l e
    | none => return fs) fs

def snapshot (w : Surroundings) (words : List String) : IO FileSystem := do
  let fs : FileSystem := ⟨[]⟩
  let fs := fs.place w.workingDir .directory
  match CommandLine.Invocation.ofWords? words with
  | some (.run _ file config) =>
    let fs ← addFiles w.workingDir true (CommandLine.configFiles w file config) fs
    match Configuration.load w config (CommandLine.startDir file) (Session.start fs) with
    | .ok (settings, _) _ =>
      addFiles w.workingDir false (CommandLine.places w settings.parser file) fs
    | .error _ _ => return fs
  | _ => return fs

end AdocProse.Program

def main (words : List String) : IO UInt32 := do
  let w ← Program.surroundings
  let fs ← Program.snapshot w words
  let (report, _) := CommandLine.run w words (Session.start fs)
  IO.print report.output
  IO.eprint report.errors
  return report.code.toUInt32
