import AdocProse.CommandLine.Run

/-!
The files that a run looks at. They are known before it starts, apart from those that its
configuration names.
-/

namespace AdocProse.CommandLine

def configFiles (w : Surroundings) (file : Path) : Option Path → List Path
  | some config => [config]
  | none =>
    Configuration.candidates (startDir file) ++ (Configuration.userPlace? w).toList

def artifactPlace? (w : Surroundings) (c : ParserSettings) : Option Path :=
  match c.artifact w with
  | .ok artifact => some artifact.path
  | .error _ => none

/-- The other files and directories, whose place matters but not what is in them. -/
def places (w : Surroundings) (c : ParserSettings) (file : Path) : List Path :=
  [file, c.tempDir.getD w.scratchDir] ++ c.jar.toList ++ (artifactPlace? w c).toList ++
    c.java.toList ++ Java.candidates w

end AdocProse.CommandLine
