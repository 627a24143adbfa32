import AdocProse.System.FileSystem
import AdocProse.Web.Exchange

/-!
The system that a run works in. `Surroundings` is what a run finds and cannot change: variables,
programs and servers. `Session` is what it changes: the files, and the journal of what it wrote to
the log, fetched, sent and started. An action that fails keeps the session as it was at the failure.
-/

namespace AdocProse

/-- How a program ended: with a code, or killed by a signal. -/
inductive Ending where
  | exited (code : Nat)
  | killed (signal : Nat)
  deriving DecidableEq

def Ending.code? : Ending → Option Nat
  | .exited code => some code
  | .killed _ => none

structure Outcome where
  output : List UInt8
  errors : List UInt8
  ending : Ending
  deriving DecidableEq

structure Surroundings where
  valueOf : String → Option String
  workingDir : Location
  accountHome : Option String
  /-- What the program in an executable file does with the given arguments. -/
  program : Location → List String → Outcome
  /-- The reply of the server at an address, if there is one. -/
  serve : Url → Request → Option Reply

inductive Event where
  | warning (text : String)
  | info (text : String)
  | fetched (url : String)
  | sent (request : Request)
  | started (program : Location) (arguments : List String)
  deriving DecidableEq

structure Session where
  files : FileSystem
  journal : List Event

abbrev Action (ε : Type) := EStateM ε Session

namespace Session

def start (files : FileSystem) : Session :=
  ⟨files, []⟩

end Session

namespace Action

variable {ε α : Type}

def files : Action ε FileSystem :=
  fun s => .ok s.files s

def setFiles (fs : FileSystem) : Action ε Unit :=
  fun s => .ok () { s with files := fs }

def record (es : List Event) : Action ε Unit :=
  fun s => .ok () { s with journal := s.journal ++ es }

def warn (text : String) : Action ε Unit :=
  record [.warning text]

def inform (text : String) : Action ε Unit :=
  record [.info text]

def ofExcept : Except ε α → Action ε α
  | .ok a => fun s => .ok a s
  | .error e => fun s => .error e s

/-- The same action with its failures seen as failures of another kind. -/
def mapError {δ : Type} (f : ε → δ) (a : Action ε α) : Action δ α := fun s =>
  match a s with
  | .ok x s => .ok x s
  | .error e s => .error (f e) s

/-- The action's result, whether it failed or not. -/
def attempt {δ : Type} (a : Action ε α) : Action δ (Except ε α) := fun s =>
  match a s with
  | .ok x s => .ok (.ok x) s
  | .error e s => .ok (.error e) s

end Action

namespace Surroundings

/-- Sends a request. Only a server that replies has seen it. -/
def exchange (w : Surroundings) (address : String) (request : String → Request) :
    Option Reply × List Event :=
  match Url.parse? address with
  | none => (none, [])
  | some url =>
    match w.serve url (request url.target) with
    | none => (none, [])
    | some reply => (reply.received, [.sent (request url.target)])

def workingPath (w : Surroundings) : Path :=
  (Path.mk "/").extend (w.workingDir.map String.toList)

/-- A home directory that is set to nothing counts as not set. -/
def home? (w : Surroundings) : Option Path :=
  match w.valueOf "HOME" with
  | some "" => w.accountHome.map Path.mk
  | some home => some ⟨home⟩
  | none => w.accountHome.map Path.mk

/-- A directory of the user: named by a variable if that is an absolute path, else in the home
directory. -/
def userDir? (w : Surroundings) (key name : String) : Option Path :=
  let fallback := w.home?.map fun home => home.join name
  match w.valueOf key with
  | some dir => if (Path.mk dir).isAbsolute then some ⟨dir⟩ else fallback
  | none => fallback

def cacheDir? (w : Surroundings) : Option Path :=
  w.userDir? "XDG_CACHE_HOME" ".cache"

def configDir? (w : Surroundings) : Option Path :=
  w.userDir? "XDG_CONFIG_HOME" ".config"

def scratchDir (w : Surroundings) : Path :=
  match w.valueOf "TMPDIR" with
  | some dir => ⟨dir⟩
  | none => ⟨"/tmp"⟩

end Surroundings

end AdocProse
