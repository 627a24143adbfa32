/-!
Characters and strings of configuration files. Strings stand on one line between single quotation
marks, or on several lines between three of them; between double quotes a backslash escapes, between
apostrophes nothing does. A line break is a line feed, with a carriage return before it or without,
and a string keeps it as it stands.
-/

namespace AdocProse.Toml

def isBlank (c : Char) : Bool :=
  c == ' ' || c == '\t'

/-- Tabs and everything that is no control character. -/
def isTextChar (c : Char) : Bool :=
  c == '\t' || (0x20 ≤ c.toNat && c.toNat != 0x7F)

def dropBlanks (cs : List Char) : List Char :=
  cs.dropWhile isBlank

def lineBreak? : List Char → Option (List Char)
  | '\n' :: cs => some cs
  | '\r' :: '\n' :: cs => some cs
  | _ => none

/-- What follows an optional comment, which ends before the line break. -/
def comment? : List Char → Option (List Char)
  | '#' :: cs =>
    match cs.span isTextChar with
    | (_, []) => some []
    | (_, rest) => if (lineBreak? rest).isSome then some rest else none
  | cs => some cs

/-- What follows blanks, comments and line breaks; `fuel` of them at most. -/
def dropGapFor : Nat → List Char → Option (List Char)
  | 0, cs => some cs
  | fuel + 1, cs => do
    let cs ← comment? (dropBlanks cs)
    match lineBreak? cs with
    | some cs => dropGapFor fuel cs
    | none => some cs

def dropGap (cs : List Char) : Option (List Char) :=
  dropGapFor (cs.length + 1) cs

def hexValue? (c : Char) : Option Nat :=
  let n := c.toNat
  if 48 ≤ n ∧ n ≤ 57 then some (n - 48)
  else if 97 ≤ n ∧ n ≤ 102 then some (n - 87)
  else if 65 ≤ n ∧ n ≤ 70 then some (n - 55)
  else none

/-- The number that exactly `count` hexadecimal digits write. -/
def hex? : Nat → Nat → List Char → Option (Nat × List Char)
  | 0, n, cs => some (n, cs)
  | _ + 1, _, [] => none
  | count + 1, n, c :: cs => do hex? count (n * 16 + (← hexValue? c)) cs

def scalar? (n : Nat) : Option Char :=
  if n.isValidChar then some (Char.ofNat n) else none

def escapedBy (count : Nat) (cs : List Char) : Option (Char × List Char) := do
  let (n, cs) ← hex? count 0 cs
  let c ← scalar? n
  some (c, cs)

def escape? : List Char → Option (Char × List Char)
  | [] => none
  | c :: cs =>
    match c with
    | 'b' => some ('\x08', cs)
    | 't' => some ('\t', cs)
    | 'n' => some ('\n', cs)
    | 'f' => some ('\x0c', cs)
    | 'r' => some ('\r', cs)
    | 'e' => some ('\x1b', cs)
    | '"' => some ('"', cs)
    | '\\' => some ('\\', cs)
    | 'x' => escapedBy 2 cs
    | 'u' => escapedBy 4 cs
    | 'U' => escapedBy 8 cs
    | _ => none

/-- What follows blanks and at least one line break, and all blanks and line breaks after that. -/
def foldedFor : Nat → List Char → List Char
  | 0, cs => cs
  | fuel + 1, cs =>
    match lineBreak? (dropBlanks cs) with
    | some cs => foldedFor fuel cs
    | none => dropBlanks cs

def folded? (cs : List Char) : Option (List Char) := do
  let cs ← lineBreak? (dropBlanks cs)
  some (foldedFor (cs.length + 1) cs)

/-- A string on one line, up to the closing mark. -/
def line (mark : Char) : Nat → List Char → Option (List Char × List Char)
  | 0, _ => none
  | _ + 1, [] => none
  | fuel + 1, c :: cs =>
    if c = mark then some ([], cs)
    else if c = '\\' ∧ mark = '"' then do
      let (c, cs) ← escape? cs
      let (text, cs) ← line mark fuel cs
      some (c :: text, cs)
    else if isTextChar c then do
      let (text, cs) ← line mark fuel cs
      some (c :: text, cs)
    else none

/-- A string on several lines, up to the three closing marks. One or two more marks before those
belong to the string. -/
def lines (mark : Char) : Nat → List Char → Option (List Char × List Char)
  | 0, _ => none
  | _ + 1, [] => none
  | fuel + 1, c :: cs =>
    if c = mark then
      match (c :: cs).span (· == mark) with
      | ([_, _, _], cs) => some ([], cs)
      | ([_, _, _, _], cs) => some ([mark], cs)
      | (_ :: _ :: _ :: _ :: _ :: more, cs) => some ([mark, mark], more ++ cs)
      | _ => do
        let (text, cs) ← lines mark fuel cs
        some (mark :: text, cs)
    else if c = '\\' ∧ mark = '"' then
      match folded? cs with
      | some cs => lines mark fuel cs
      | none => do
        let (c, cs) ← escape? cs
        let (text, cs) ← lines mark fuel cs
        some (c :: text, cs)
    else if isTextChar c ∨ (lineBreak? (c :: cs)).isSome then do
      let (text, cs) ← lines mark fuel cs
      some (c :: text, cs)
    else none

def lineString? (mark : Char) (cs : List Char) : Option (String × List Char) := do
  let (text, cs) ← line mark (cs.length + 1) cs
  some (String.ofList text, cs)

/-- The string behind an opening mark, on one line or several. A line break behind three opening
marks does not count. -/
def string? (mark : Char) (cs : List Char) : Option (String × List Char) :=
  match cs with
  | m₁ :: m₂ :: rest =>
    if m₁ = mark ∧ m₂ = mark then do
      let body := (lineBreak? rest).getD rest
      let (text, cs) ← lines mark (body.length + 1) body
      some (String.ofList text, cs)
    else lineString? mark cs
  | _ => lineString? mark cs

end AdocProse.Toml
