import AdocProse.Parser.Error

/-!
Where Java is: at the configured path, else in `bin` of `$JAVA_HOME`, else in the first directory
of `$PATH` that has it.
-/

namespace AdocProse.Java

/-- A path whose first piece is a tilde begins in the home directory, if one is set. -/
def expandHome (w : Surroundings) (p : Path) : Path :=
  match p.pieces, (w.valueOf "HOME").filter (· ≠ "") with
  | ['~'] :: rest, some home => (Path.mk home).extend rest
  | _, _ => p

/-- The directories of a search path, of which the relative ones are meant in `base`. An empty entry
is `base` itself. -/
def directories (w : Surroundings) (base : Path) (searchPath : String) : List Path :=
  (Pieces.split ':' searchPath.toList).map fun cs =>
    (expandHome w ⟨String.ofList cs⟩).within base

def below (w : Surroundings) (base : Path) (searchPath : String) : List Path :=
  (directories w base searchPath).map fun dir => dir.join "java"

/-- The places where Java can be, the first choice first. The directory in `$JAVA_HOME` is searched
as a search path of its own, and what is relative in it is meant in that directory again. -/
def candidates (w : Surroundings) : List Path :=
  let atHome := (w.valueOf "JAVA_HOME").map fun home =>
    let bin := (Path.mk home).join "bin"
    below w bin bin.text
  let onPath := (w.valueOf "PATH").map (below w w.workingPath)
  atHome.getD [] ++ onPath.getD []

def find (w : Surroundings) (fs : FileSystem) (configured : Option Path) :
    Except ParseError Path :=
  match configured with
  | some path => .ok path
  | none =>
    match (candidates w).find? (fs.isExecutable w.workingDir) with
    | some path => .ok path
    | none => .error .javaNotFound

end AdocProse.Java
