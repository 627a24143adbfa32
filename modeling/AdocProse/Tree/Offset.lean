import AdocProse.Json.Reader

/-!
Offsets are natural numbers below `2 ^ 64`. They may also be given with a fraction, which is cut
off, or as strings. A string with an exponent is read as a binary64 number; in any other string
what stands before the first point is read as an integer.
-/

namespace AdocProse.Offset

open Json (Reading)

def limit : Nat :=
  UInt64.size

/-- Digits after an optional plus sign, for a number below the limit. -/
def ofInteger? (cs : List Char) : Option Nat :=
  let unsigned := match cs with
    | '+' :: cs => cs
    | cs => cs
  match Decimal.span Digit.ofChar? unsigned with
  | ([], _) => none
  | (_, _ :: _) => none
  | (ds, []) =>
    let n := Decimal.value ds
    if n < limit then some n else none

/-- The whole part of a number that is neither negative nor too large. -/
def ofFloat? (x : Binary64) : Option Nat :=
  if x.isNegative then none
  else
    let n := x.magnitude.floor
    if n < limit then some n else none

def sign (cs : List Char) : Bool × List Char :=
  match cs with
  | '-' :: cs => (true, cs)
  | '+' :: cs => (false, cs)
  | cs => (false, cs)

/-- A sign, digits with an optional point among them, and an exponent. -/
def float? (cs : List Char) : Option Binary64 := do
  let (negative, cs) := sign cs
  let (whole, cs) := Decimal.span Digit.ofChar? cs
  let (fraction, cs) := match cs with
    | '.' :: cs => Decimal.span Digit.ofChar? cs
    | cs => ([], cs)
  if whole = [] ∧ fraction = [] then none
  else
    match cs with
    | [] => none
    | c :: cs =>
      if c = 'e' ∨ c = 'E' then
        let (down, cs) := sign cs
        match Decimal.span Digit.ofChar? cs with
        | ([], _) => none
        | (_, _ :: _) => none
        | (ds, []) => do
          let power : Int := if down then -Decimal.value ds else Decimal.value ds
          let m ← Magnitude.ofDecimal (Decimal.value (whole ++ fraction)) (power - fraction.length)
          some ⟨negative, m⟩
      else none

def ofChars? (cs : List Char) : Option Nat :=
  if cs.any fun c => c == 'e' || c == 'E' then do ofFloat? (← float? cs)
  else ofInteger? (cs.takeWhile (· != '.'))

def ofString? (s : String) : Option Nat :=
  ofChars? s.toList

def expected : String :=
  "a non-negative offset as a number or a number string"

def refuse (why : String) : Json.Fault :=
  .unfit (.refused why)

def ofNumber : Json.Number → Except Json.Fault Nat
  | .natural n => .ok n
  | .negative n => .error (refuse ("negative offset -" ++ Decimal.text n))
  | .float x =>
    match ofFloat? x with
    | some n => .ok n
    | none => .error (refuse ("invalid offset " ++ x.positional))

def ofText (s : String) : Except Json.Fault Nat :=
  match ofString? s with
  | some n => .ok n
  | none => .error (refuse ("invalid offset " ++ quoted s))

/-- A container is opened before it is refused. -/
def ofValue : Json.Value → Reading Nat
  | .number n => fun _ => do ofNumber (← n.toNumber)
  | .string s => fun _ => do ofText (← s.text)
  | .array items ending => Reading.inside (Reading.mismatch (.array items ending) expected)
  | .object ms ending => Reading.inside (Reading.mismatch (.object ms ending) expected)
  | v => Reading.mismatch v expected

end AdocProse.Offset
