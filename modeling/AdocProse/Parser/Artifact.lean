import AdocProse.Parser.Error

/-!
The parser is a file that is downloaded once. It lies in a cache directory, under the name that its
address ends with. A download goes to a temporary file beside its place and is moved there when it
is complete, so what is at its place is never a part of a file.
-/

namespace AdocProse

/-- What a fetcher delivers: the bytes that it wrote, and why it failed if it did. -/
structure Delivery where
  bytes : List UInt8
  failure : Option IoKind
  events : List Event

abbrev Fetcher := String → Delivery

namespace Fetcher

def request (target : String) : Request :=
  ⟨"GET", target, "asciidoc-ast-rs/0.1.0", none, []⟩

/-- Takes the body of the reply, unless the status is that of a failure. -/
def http (w : Surroundings) : Fetcher := fun url =>
  match w.exchange url request with
  | (none, events) => ⟨[], some .other, events⟩
  | (some reply, events) =>
    if reply.isFailure then ⟨[], some .other, events⟩ else ⟨reply.body, none, events⟩

end Fetcher

structure Artifact where
  url : String
  path : Path
  deriving DecidableEq

namespace Artifact

def fileName (url : String) : String :=
  String.ofList (((Pieces.split '/' url.toList).getLast?).getD [])

def ofUrl (url : String) (cacheDir : Path) : Artifact :=
  ⟨url, cacheDir.join (fileName url)⟩

def isCached (a : Artifact) (fs : FileSystem) (workingDir : Location) : Bool :=
  fs.isFile workingDir a.path

def makeParent (w : Surroundings) (parent : Path) : Action IoKind Unit := fun s =>
  match s.files.makeDirectories w.workingDir parent with
  | (.ok (), fs) => .ok () { s with files := fs }
  | (.error e, fs) => .error e { s with files := fs }

def persist (w : Surroundings) (a : Artifact) (temporary : Location) : Action IoKind Unit := do
  let fs ← Action.files
  match fs.rename w.workingDir temporary a.path with
  | .ok fs => Action.setFiles fs
  | .error e => do
    Action.setFiles (fs.erase temporary)
    throw e

def download (w : Surroundings) (a : Artifact) (fetch : Fetcher) : Action IoKind Unit := do
  let parent := a.path.parent?.getD ⟨"."⟩
  makeParent w parent
  let fs ← Action.files
  let temporary ← Action.ofExcept (fs.freshLocation w.workingDir parent [fileName a.path.text])
  let delivery := fetch a.url
  Action.record delivery.events
  Action.setFiles (fs.put temporary (.file delivery.bytes false))
  match delivery.failure with
  | none => a.persist w temporary
  | some e => do
    Action.setFiles (fs.erase temporary)
    throw e

/-- The path of the artifact, which is a file then. It is downloaded if it is not there. -/
def ensure (w : Surroundings) (a : Artifact) (fetch : Fetcher) : Action ParseError Path := do
  let fs ← Action.files
  if a.isCached fs w.workingDir then pure a.path
  else do
    Action.inform ("downloading " ++ a.url ++ " to " ++ a.path.text)
    Action.mapError (ParseError.download a.url a.path) (a.download w fetch)
    Action.inform ("downloaded " ++ a.url ++ " to " ++ a.path.text)
    pure a.path

end Artifact

end AdocProse
