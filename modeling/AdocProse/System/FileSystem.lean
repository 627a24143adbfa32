import AdocProse.System.Path
import AdocProse.Text.Utf8

/-!
A file system without links: a table of files and directories by their location, which is the list
of names on the way from the root. Paths are resolved from a working directory, piece by piece, and
every piece but the last must be a directory.
-/

namespace AdocProse

inductive IoKind where
  | notFound | permissionDenied | connectionRefused | connectionReset | connectionAborted
  | notConnected | brokenPipe | alreadyExists | wouldBlock | notADirectory | isADirectory
  | invalidInput | invalidData | timedOut | writeZero | storageFull | resourceBusy
  | invalidFileName | notAProgram | interrupted | unsupported | unexpectedEnd | outOfMemory | other
  deriving DecidableEq

def IoKind.text : IoKind → String
  | .notFound => "No such file or directory (os error 2)"
  | .permissionDenied => "Permission denied (os error 13)"
  | .alreadyExists => "File exists (os error 17)"
  | .notADirectory => "Not a directory (os error 20)"
  | .isADirectory => "Is a directory (os error 21)"
  | .resourceBusy => "Device or resource busy (os error 16)"
  | .invalidFileName => "File name too long (os error 36)"
  | .notAProgram => "Exec format error (os error 8)"
  | .invalidInput => "file name contained an unexpected NUL byte"
  | .invalidData => "stream did not contain valid UTF-8"
  | .storageFull => "No space left on device (os error 28)"
  | .connectionRefused => "connection refused"
  | .connectionReset => "connection reset"
  | .connectionAborted => "connection aborted"
  | .notConnected => "not connected"
  | .brokenPipe => "broken pipe"
  | .wouldBlock => "operation would block"
  | .timedOut => "timed out"
  | .writeZero => "write zero"
  | .interrupted => "operation interrupted"
  | .unsupported => "unsupported"
  | .unexpectedEnd => "unexpected end of file"
  | .outOfMemory => "out of memory"
  | .other => "other error"

abbrev Location := List String

inductive Entry where
  | file (content : List UInt8) (executable : Bool)
  | directory
  deriving DecidableEq

structure FileSystem where
  entries : List (Location × Entry)

namespace FileSystem

/-- The root is always there. -/
def get? (fs : FileSystem) (l : Location) : Option Entry :=
  if l = [] then some .directory else fs.entries.lookup l

def erase (fs : FileSystem) (l : Location) : FileSystem :=
  ⟨fs.entries.filter fun e => e.1 ≠ l⟩

def put (fs : FileSystem) (l : Location) (e : Entry) : FileSystem :=
  ⟨(l, e) :: (fs.erase l).entries⟩

/-- Puts an entry at a location and directories above it where there is nothing. -/
def place (fs : FileSystem) (l : Location) (e : Entry) : FileSystem :=
  let parents := (List.range l.length).map fun n => l.take n
  (parents.foldl (fun fs parent =>
    if (fs.get? parent).isSome then fs else fs.put parent .directory) fs).put l e

def names (fs : FileSystem) (l : Location) : List String :=
  fs.entries.filterMap fun e =>
    if e.1.dropLast = l then e.1.getLast? else none

/-- The place that one more piece leads to; `..` leads to the directory above. -/
def enter (fs : FileSystem) (l : Location) (piece : List Char) : Except IoKind Location :=
  if Path.isIdle piece then .ok l
  else if piece = ['.', '.'] then .ok l.dropLast
  else
    let name := String.ofList piece
    if 255 < Utf8.size name then .error .invalidFileName
    else
      match fs.get? (l ++ [name]) with
      | none => .error .notFound
      | some (.file _ _) => .error .notADirectory
      | some .directory => .ok (l ++ [name])

/-- The location that a path spells, whatever is there. -/
def spelled (workingDir : Location) (p : Path) : Location :=
  p.pieces.foldl (fun l piece =>
    if Path.isIdle piece then l
    else if piece = ['.', '.'] then l.dropLast
    else l ++ [String.ofList piece]) (if p.isAbsolute then [] else workingDir)

def walk (fs : FileSystem) : Location → List (List Char) → Except IoKind Location
  | l, [] => .ok l
  | l, piece :: ps => do walk fs (← fs.enter l piece) ps

/-- What a path denotes: a directory, reached by a slash or dots at the end or by the root, or a
name in a directory, at which there may be nothing. -/
inductive Target where
  | directory (l : Location)
  | entry (parent : Location) (name : String)

def Target.location : Target → Location
  | .directory l => l
  | .entry parent name => parent ++ [name]

def isDots (piece : List Char) : Bool :=
  Path.isIdle piece || piece == ['.', '.']

def resolve (fs : FileSystem) (workingDir : Location) (p : Path) : Except IoKind Target :=
  if p.text.toList = [] then .error .notFound
  else if p.text.toList.contains '\x00' then .error .invalidInput
  else if 4096 ≤ Utf8.size p.text then .error .invalidFileName
  else
    let start := if p.isAbsolute then [] else workingDir
    match p.pieces.getLast? with
    | none => .error .notFound
    | some last =>
      if isDots last then do return .directory (← fs.walk start p.pieces)
      else do
        let parent ← fs.walk start p.pieces.dropLast
        let name := String.ofList last
        if 255 < Utf8.size name then .error .invalidFileName
        else .ok (.entry parent name)

def lookup (fs : FileSystem) (workingDir : Location) (p : Path) :
    Except IoKind (Location × Entry) := do
  let target ← fs.resolve workingDir p
  match fs.get? target.location with
  | some e => .ok (target.location, e)
  | none => .error .notFound

def isFile (fs : FileSystem) (workingDir : Location) (p : Path) : Bool :=
  match fs.lookup workingDir p with
  | .ok (_, .file _ _) => true
  | _ => false

def isDirectory (fs : FileSystem) (workingDir : Location) (p : Path) : Bool :=
  match fs.lookup workingDir p with
  | .ok (_, .directory) => true
  | _ => false

def isExecutable (fs : FileSystem) (workingDir : Location) (p : Path) : Bool :=
  match fs.lookup workingDir p with
  | .ok (_, .file _ executable) => executable
  | _ => false

def read (fs : FileSystem) (workingDir : Location) (p : Path) : Except IoKind (List UInt8) := do
  match ← fs.lookup workingDir p with
  | (_, .file content _) => .ok content
  | (_, .directory) => .error .isADirectory

/-- A path's spelling without slashes at its end, which do not matter for a new directory. -/
def withoutEndSlashes (p : Path) : Path :=
  let cs := (p.text.toList.reverse.dropWhile (· == '/')).reverse
  if cs = [] then p else ⟨String.ofList cs⟩

def makeDirectory (fs : FileSystem) (workingDir : Location) (p : Path) :
    Except IoKind FileSystem := do
  match ← fs.resolve workingDir (withoutEndSlashes p) with
  | .directory _ => .error .alreadyExists
  | .entry parent name =>
    match fs.get? (parent ++ [name]) with
    | some _ => .error .alreadyExists
    | none => .ok (fs.put (parent ++ [name]) .directory)

/-- Makes a directory and, `fuel` levels up at most, those above it. What was made stays when a
later step fails. -/
def makeDirectoriesFor (workingDir : Location) :
    Nat → Path → FileSystem → Except IoKind Unit × FileSystem
  | fuel, p, fs =>
    if p.text.toList = [] then (.ok (), fs)
    else
      match fs.makeDirectory workingDir p with
      | .ok fs => (.ok (), fs)
      | .error .notFound =>
        match p.parent?, fuel with
        | none, _ => (.error .other, fs)
        | some _, 0 => (.error .other, fs)
        | some q, fuel + 1 =>
          match makeDirectoriesFor workingDir fuel q fs with
          | (.error e, fs) => (.error e, fs)
          | (.ok (), fs) =>
            match fs.makeDirectory workingDir p with
            | .ok fs => (.ok (), fs)
            | .error e => (if fs.isDirectory workingDir p then .ok () else .error e, fs)
      | .error e => (if fs.isDirectory workingDir p then .ok () else .error e, fs)

def makeDirectories (fs : FileSystem) (workingDir : Location) (p : Path) :
    Except IoKind Unit × FileSystem :=
  makeDirectoriesFor workingDir (p.pieces.length + 1) p fs

/-- A name that is longer than all the given names together. -/
def freshName (taken : List String) : String :=
  ".tmp" ++ String.ofList (List.replicate (String.join taken).length 'x')

/-- Where a new temporary file in a directory can be. An empty path is the working directory. -/
def freshLocation (fs : FileSystem) (workingDir : Location) (dir : Path) (avoid : List String) :
    Except IoKind Location := do
  let target ←
    if dir.text.toList = [] then pure (Target.directory workingDir)
    else fs.resolve workingDir dir
  match fs.get? target.location with
  | none => .error .notFound
  | some (.file _ _) => .error .notADirectory
  | some .directory =>
    .ok (target.location ++ [freshName (avoid ++ fs.names target.location)])

/-- Moves a plain file to a path, in place of what plain file is there. -/
def rename (fs : FileSystem) (workingDir : Location) (source : Location) (p : Path) :
    Except IoKind FileSystem := do
  match fs.get? source with
  | none => .error .notFound
  | some e =>
    let spelled := withoutEndSlashes p
    match ← fs.resolve workingDir spelled with
    | .directory _ => .error .resourceBusy
    | .entry parent name =>
      if spelled ≠ p then .error .notADirectory
      else
        match fs.get? (parent ++ [name]) with
        | some .directory => .error .isADirectory
        | _ => .ok ((fs.erase source).put (parent ++ [name]) e)

end FileSystem

end AdocProse
