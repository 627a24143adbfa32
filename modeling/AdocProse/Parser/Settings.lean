import AdocProse.Parser.Artifact

/-!
How the parser is obtained and run.
-/

namespace AdocProse

structure ParserSettings where
  java : Option Path := none
  /-- What the virtual machine needs to open to the parser. -/
  jvmArgs : List String :=
    ["--add-opens=java.base/java.io=ALL-UNNAMED", "--add-opens=java.base/java.lang=ALL-UNNAMED"]
  jar : Option Path := none
  jarUrl : String := "https://github.com/alexpdp7/asciidoc-ast/releases/download/" ++
    "v20211106.1/asciidoc-ast-20211106.1.jar"
  cacheDir : Option Path := none
  tempDir : Option Path := none
  deriving DecidableEq

namespace ParserSettings

def defaultCacheDir? (w : Surroundings) : Option Path :=
  w.cacheDir?.map fun dir => dir.join "languagetool-asciidoc"

def artifact (c : ParserSettings) (w : Surroundings) : Except ParseError Artifact :=
  match c.cacheDir, defaultCacheDir? w with
  | some dir, _ => .ok (Artifact.ofUrl c.jarUrl dir)
  | none, some dir => .ok (Artifact.ofUrl c.jarUrl dir)
  | none, none => .error .noCacheDir

def ensureJar (c : ParserSettings) (w : Surroundings) (fetch : Fetcher) :
    Action ParseError Path := do
  match c.jar with
  | some jar => pure jar
  | none => do
    let artifact ← Action.ofExcept (c.artifact w)
    artifact.ensure w fetch

end ParserSettings

end AdocProse
