import AdocProse.System.Session
import AdocProse.Tree.Reader

/-!
What can go wrong on the way from a document to its tree.
-/

namespace AdocProse

inductive ParseError where
  | download (url : String) (path : Path) (cause : IoKind)
  | noCacheDir
  | javaNotFound
  | spawnFailed (program : Path) (cause : IoKind)
  /-- The parser did not end with code 0; it left a text. -/
  | parserFailed (code : Option Nat) (errors : String)
  | tree (e : TreeError)
  /-- The document or a capture file could not be used. -/
  | io (kind : IoKind) (place : Option Path)
  deriving DecidableEq

namespace ParseError

def text : ParseError → String
  | .download url path _ => "can't download " ++ url ++ " to " ++ path.text
  | .noCacheDir => "no cache directory available; set `parser.cache_dir` or `parser.jar`"
  | .javaNotFound =>
    "java executable not found; install a JRE, set JAVA_HOME, or set `parser.java`"
  | .spawnFailed program _ => "failed to spawn " ++ program.text
  | .parserFailed _ errors => errors
  | .tree e => e.text
  | .io kind none => kind.text
  | .io kind (some place) => kind.text ++ " at path " ++ quoted place.text

end ParseError

end AdocProse
