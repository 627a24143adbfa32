import AdocProse.Number.Decimal
import AdocProse.Text.Pieces
import AdocProse.Web.Form

/-!
Addresses on the web. `parse?` reads an absolute http or https address in any of the spellings that
browsers accept, and gives it the one spelling in which it is requested: the dots in the path are
resolved, what may not stand in a path or query is percent-encoded, and the fragment is left out.
-/

namespace AdocProse

structure Url where
  secure : Bool
  host : String
  port : Nat
  target : String
  deriving DecidableEq

namespace Url

def isSlash (c : Char) : Bool :=
  c == '/' || c == '\\'

def isTrimmed (c : Char) : Bool :=
  c.toNat ≤ 0x20

def isLineBreak (c : Char) : Bool :=
  c == '\t' || c == '\n' || c == '\r'

/-- Control characters and blanks at the ends do not count, nor do tabs and line breaks anywhere. -/
def clean (cs : List Char) : List Char :=
  (((cs.dropWhile isTrimmed).reverse.dropWhile isTrimmed).reverse).filter fun c => !isLineBreak c

def endsAuthority (c : Char) : Bool :=
  isSlash c || c == '?' || c == '#'

def isControl (c : Char) : Bool :=
  c.toNat < 0x20 || 0x7E < c.toNat

def escapedInPath (c : Char) : Bool :=
  isControl c || [' ', '"', '#', '<', '>', '?', '\x60', '\x7b', '\x7d'].contains c

def escapedInQuery (c : Char) : Bool :=
  isControl c || [' ', '"', '#', '<', '>', '\x27'].contains c

def escape (escaped : Char → Bool) (cs : List Char) : List Char :=
  cs.flatMap fun c =>
    if escaped c then (String.utf8EncodeChar c).flatMap Form.percent else [c]

def segments : List Char → List (List Char)
  | [] => [[]]
  | c :: cs =>
    if isSlash c then [] :: segments cs
    else
      match segments cs with
      | [] => [[c]]
      | s :: ss => (c :: s) :: ss

/-- A dot may be spelled as an escape. -/
def dots : List Char → Option Nat
  | [] => some 0
  | '.' :: cs => (· + 1) <$> dots cs
  | '%' :: '2' :: 'e' :: cs => (· + 1) <$> dots cs
  | '%' :: '2' :: 'E' :: cs => (· + 1) <$> dots cs
  | _ => none

def isDriveLetter : List Char → Bool
  | [c, mark] => c.isAlpha && (mark == ':' || mark == '|')
  | _ => false

/-- Two dots remove a segment, unless it names a drive. -/
def above : List (List Char) → List (List Char)
  | [] => []
  | s :: kept => if isDriveLetter s then s :: kept else kept

/-- Resolves dots, `kept` being the segments so far, the last one first. Dots at the end leave an
empty segment. -/
def resolveDots : List (List Char) → List (List Char) → List (List Char)
  | kept, [] => kept.reverse
  | kept, s :: ss =>
    match dots s with
    | some 1 => resolveDots (if ss = [] then [] :: kept else kept) ss
    | some 2 => resolveDots (if ss = [] then [] :: above kept else above kept) ss
    | _ => resolveDots (s :: kept) ss

def normalPath (cs : List Char) : List Char :=
  let ss := resolveDots [] (segments cs)
  ss.flatMap fun s => '/' :: escape escapedInPath s

def normalTarget (cs : List Char) : List Char :=
  let kept := cs.takeWhile (· != '#')
  let path := kept.takeWhile (· != '?')
  let query := kept.dropWhile (· != '?')
  let path := match path with
    | [] => []
    | c :: rest => if isSlash c then rest else c :: rest
  normalPath path ++
    (match query with
      | [] => []
      | mark :: rest => mark :: escape escapedInQuery rest)

/-- The port behind a colon; without digits it is the given one. -/
def port? (default : Nat) : List Char → Option Nat
  | [] => some default
  | ':' :: cs =>
    match Decimal.span Digit.ofChar? cs with
    | ([], []) => some default
    | (ds, []) => if Decimal.value ds < UInt16.size then some (Decimal.value ds) else none
    | _ => none
  | _ => none

/-- Host and port behind the user, who ends with the last at sign. -/
def authority? (default : Nat) (cs : List Char) : Option (String × Nat) := do
  let place := (cs.reverse.takeWhile (· != '@')).reverse
  let (host, rest) :=
    match place with
    | '[' :: _ => (place.takeWhile (· != ']') ++ [']'], (place.dropWhile (· != ']')).drop 1)
    | _ => (place.takeWhile (· != ':'), place.dropWhile (· != ':'))
  if host = [] then none
  else do
    let port ← port? default rest
    some (String.ofList (host.map Char.toLower), port)

def isSchemeChar (c : Char) : Bool :=
  c.isAlphanum || c == '+' || c == '-' || c == '.'

def scheme? (cs : List Char) : Option (List Char × List Char) :=
  match cs.span isSchemeChar with
  | (c :: scheme, ':' :: rest) =>
    if c.isAlpha then some ((c :: scheme).map Char.toLower, rest) else none
  | _ => none

def parse? (s : String) : Option Url := do
  let (scheme, rest) ← scheme? (clean s.toList)
  let secure ←
    if scheme = ['h', 't', 't', 'p'] then some false
    else if scheme = ['h', 't', 't', 'p', 's'] then some true
    else none
  let rest := rest.dropWhile isSlash
  let (host, port) ← authority? (if secure then 443 else 80)
    (rest.takeWhile fun c => !endsAuthority c)
  some ⟨secure, host, port,
    String.ofList (normalTarget (rest.dropWhile fun c => !endsAuthority c))⟩

end Url

end AdocProse
