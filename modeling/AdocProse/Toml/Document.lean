import AdocProse.Toml.Table

/-!
Configuration files: lines with a key and its value or with the header of a table. `Document.parse?`
gives the table of a whole file, or nothing if any line is malformed or sets a key twice.
-/

namespace AdocProse.Toml

/-- How deep arrays and inline tables may be nested. -/
def depth : Nat :=
  80

namespace Key

def isBare (c : Char) : Bool :=
  c.isAlphanum || c == '-' || c == '_'

def simple? (cs : List Char) : Option (String × List Char) :=
  match cs with
  | '"' :: cs => lineString? '"' cs
  | '\x27' :: cs => lineString? '\x27' cs
  | cs =>
    match cs.span isBare with
    | ([], _) => none
    | (name, rest) => some (String.ofList name, rest)

/-- A dotted key: the names before the last one, and the last one. -/
def dottedFor : Nat → List Char → Option (List String × String × List Char)
  | 0, _ => none
  | fuel + 1, cs => do
    let (name, cs) ← simple? (dropBlanks cs)
    let cs := dropBlanks cs
    match cs with
    | '.' :: cs => do
      let (path, last, cs) ← dottedFor fuel cs
      some (name :: path, last, cs)
    | cs => some ([], name, cs)

def dotted? (cs : List Char) : Option (List String × String × List Char) :=
  dottedFor (cs.length + 1) cs

end Key

mutual

def value (room : Nat) : Nat → List Char → Option (Value × List Char)
  | 0, _ => none
  | fuel + 1, cs =>
    match cs with
    | '"' :: cs => do
      let (s, cs) ← string? '"' cs
      some (.string s, cs)
    | '\x27' :: cs => do
      let (s, cs) ← string? '\x27' cs
      some (.string s, cs)
    | '[' :: cs =>
      if room = 0 then none
      else do
        let (items, cs) ← arrayItems (room - 1) fuel cs
        some (.array items, cs)
    | '\x7b' :: cs =>
      if room = 0 then none
      else do
        let (t, cs) ← inlineEntries (room - 1) fuel ⟨.inline, []⟩ cs
        some (t.toValue, cs)
    | cs => do
      let (s, cs) ← Scalar.scan? cs
      some (.scalar s, cs)

/-- Items up to the closing bracket; a comma may stand behind the last one. -/
def arrayItems (room : Nat) : Nat → List Char → Option (List Value × List Char)
  | 0, _ => none
  | fuel + 1, cs => do
    let cs ← dropGap cs
    match cs with
    | ']' :: cs => some ([], cs)
    | cs => do
      let (v, cs) ← value room fuel cs
      let cs ← dropGap cs
      match cs with
      | ',' :: cs => do
        let (vs, cs) ← arrayItems room fuel cs
        some (v :: vs, cs)
      | ']' :: cs => some ([v], cs)
      | _ => none

/-- Keys and values up to the closing brace, on one line or several; a comma may stand behind the
last ones. -/
def inlineEntries (room : Nat) : Nat → Table → List Char → Option (Table × List Char)
  | 0, _, _ => none
  | fuel + 1, t, cs => do
    let cs ← dropGap cs
    match cs with
    | '\x7d' :: cs => some (t, cs)
    | cs => do
      let (path, key, cs) ← Key.dotted? cs
      let cs ← dropGap cs
      match cs with
      | '=' :: cs => do
        let (v, cs) ← value room fuel (← dropGap cs)
        let t ← t.insert path key v
        let cs ← dropGap cs
        match cs with
        | ',' :: cs => inlineEntries room fuel t cs
        | '\x7d' :: cs => some (t, cs)
        | _ => none
      | _ => none

end

namespace Document

structure State where
  root : Table
  header : List String

def endLine? (cs : List Char) : Option (List Char) := do
  let cs ← comment? (dropBlanks cs)
  match cs with
  | [] => some []
  | cs => lineBreak? cs

def header? (s : State) (cs : List Char) : Option (State × List Char) :=
  match cs with
  | '[' :: cs => do
    let (path, key, cs) ← Key.dotted? cs
    match cs with
    | ']' :: ']' :: cs => some (⟨← s.root.openRepeated path key, path ++ [key]⟩, cs)
    | _ => none
  | cs => do
    let (path, key, cs) ← Key.dotted? cs
    match cs with
    | ']' :: cs => some (⟨← s.root.openTable path key, path ++ [key]⟩, cs)
    | _ => none

def entry? (s : State) (cs : List Char) : Option (State × List Char) := do
  let (path, key, cs) ← Key.dotted? cs
  match cs with
  | '=' :: cs => do
    let cs := dropBlanks cs
    let (v, cs) ← value depth (2 * cs.length + 2) cs
    some (⟨← s.root.insertBelow s.header path key v, s.header⟩, cs)
  | _ => none

def statement? (s : State) (cs : List Char) : Option (State × List Char) :=
  match cs with
  | [] => some (s, [])
  | c :: rest =>
    if c = '#' ∨ (lineBreak? (c :: rest)).isSome then some (s, c :: rest)
    else if c = '[' then header? s rest
    else entry? s (c :: rest)

def statements : Nat → State → List Char → Option State
  | _, s, [] => some s
  | 0, _, _ :: _ => none
  | fuel + 1, s, cs => do
    let (s, cs) ← statement? s (dropBlanks cs)
    statements fuel s (← endLine? cs)

/-- A byte order mark in front of the first line does not count. -/
def parse? (text : String) : Option Table := do
  let cs := match text.toList with
    | '\ufeff' :: cs => cs
    | cs => cs
  let s ← statements cs.length ⟨⟨.written, []⟩, []⟩ cs
  some s.root

end Document

end AdocProse.Toml
