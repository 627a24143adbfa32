import AdocProse.Number.Binary64
import AdocProse.Number.Decimal
import AdocProse.Text.Pieces
import AdocProse.Toml.Text

/-!
Truth values, numbers, dates and times as configuration files write them. Digits may be grouped by
single underscores between them. What stands behind the first underscore of an integer is read only
when its value is asked for, so an integer can be well formed and have no value. Whether a number is
in range is no question of its form either.
-/

namespace AdocProse.Toml

inductive Scalar where
  | bool (b : Bool)
  /-- An integer, with its value if the digits make one. -/
  | integer (value : Option Int)
  /-- A float, and whether it is in range. -/
  | float (inRange : Bool)
  | dateTime
  deriving DecidableEq

namespace Scalar

def digitBelow (base : Nat) (c : Char) : Option Nat := do
  let n ← hexValue? c
  if n < base then some n else none

def isDigitBelow (base : Nat) (c : Char) : Bool :=
  (digitBelow base c).isSome

def valueIn (base : Nat) (ds : List Nat) : Nat :=
  ds.foldl (fun n d => n * base + d) 0

def natural? (base : Nat) (cs : List Char) : Option Nat :=
  match cs.mapM (digitBelow base) with
  | none => none
  | some [] => none
  | some ds => some (valueIn base ds)

def sign (cs : List Char) : Bool × List Char :=
  match cs with
  | '-' :: cs => (true, cs)
  | '+' :: cs => (false, cs)
  | cs => (false, cs)

def signed (negative : Bool) (n : Nat) : Int :=
  if negative then -n else n

def withoutUnderscores (cs : List Char) : List Char :=
  cs.filter (· != '_')

/-- Whether the pieces behind the first underscore begin with a digit, and those before the last one
end with a digit. -/
def areGroups (isDigit : Char → Bool) : List (List Char) → Bool
  | [] => true
  | [last] => last.head?.any isDigit
  | group :: groups =>
    group.head?.any isDigit && group.getLast?.any isDigit && areGroups isDigit groups

/-- Whether underscores stand one at a time between digits. A sign alone may stand in front of the
first one. -/
def isGrouped (isDigit : Char → Bool) (cs : List Char) : Bool :=
  match Pieces.split '_' cs with
  | [] => true
  | [_] => true
  | first :: groups =>
    (first.length == 1 || first.getLast?.any isDigit) && areGroups isDigit groups

def integerIn? (base : Nat) (cs : List Char) : Option Scalar :=
  if cs.all (fun c => c == '_' || isDigitBelow base c) && isGrouped (isDigitBelow base) cs then
    some (.integer ((fun n : Nat => (n : Int)) <$> natural? base (withoutUnderscores cs)))
  else none

/-- A decimal integer. None begins with a zero, the number zero apart. -/
def integer? (cs : List Char) : Option Scalar :=
  let (negative, digits) := sign cs
  if (digits.head? == some '0' && digits != ['0']) || !isGrouped (isDigitBelow 16) cs then none
  else some (.integer (signed negative <$> natural? 10 (withoutUnderscores digits)))

/-- The digits at the head, at least one, among underscores. -/
def digitRun? (cs : List Char) : Option (List Nat × List Char) :=
  let (run, rest) := cs.span fun c => c == '_' || c.isDigit
  match run.filterMap (digitBelow 10) with
  | [] => none
  | ds => some (ds, rest)

def isExponentMark (c : Char) : Bool :=
  c == 'e' || c == 'E'

def fraction? : List Char → Option (List Nat × List Char)
  | '.' :: cs => digitRun? cs
  | cs => some ([], cs)

def power? : List Char → Option (Int × List Char)
  | [] => some (0, [])
  | c :: cs =>
    if isExponentMark c then do
      let (negative, cs) := sign cs
      let (ds, cs) ← digitRun? cs
      some (signed negative (valueIn 10 ds), cs)
    else some (0, c :: cs)

def float? (cs : List Char) : Option Scalar := do
  let (_, digits) := sign cs
  let (whole, rest) ← digitRun? digits
  let (fraction, rest) ← fraction? rest
  let (power, rest) ← power? rest
  if rest ≠ [] ∨ (digits.head? = some '0' ∧ whole.length ≠ 1) then none
  else if !isGrouped Char.isDigit cs then none
  else
    let magnitude := Magnitude.ofDecimal (valueIn 10 (whole ++ fraction)) (power - fraction.length)
    some (.float magnitude.isSome)

def digits? : Nat → Nat → List Char → Option (Nat × List Char)
  | 0, n, cs => some (n, cs)
  | _ + 1, _, [] => none
  | count + 1, n, c :: cs => do digits? count (n * 10 + (← digitBelow 10 c)) cs

def skip? (c : Char) : List Char → Option (List Char)
  | [] => none
  | c' :: cs => if c' = c then some cs else none

def daysIn (year month : Nat) : Nat :=
  if month = 2 then
    if (year % 4 = 0 ∧ year % 100 ≠ 0) ∨ year % 400 = 0 then 29 else 28
  else if month = 4 ∨ month = 6 ∨ month = 9 ∨ month = 11 then 30
  else 31

def date? (cs : List Char) : Option (List Char) := do
  let (year, cs) ← digits? 4 0 cs
  let (month, cs) ← digits? 2 0 (← skip? '-' cs)
  let (day, cs) ← digits? 2 0 (← skip? '-' cs)
  if 1 ≤ month ∧ month ≤ 12 ∧ 1 ≤ day ∧ day ≤ daysIn year month then some cs else none

/-- What follows the fraction of a second, if there is one. -/
def secondFraction? : List Char → Option (List Char)
  | '.' :: cs =>
    match cs.span Char.isDigit with
    | ([], _) => none
    | (_, rest) => some rest
  | cs => some cs

/-- What follows a time. Seconds may be left out; a minute may have a leap second. -/
def time? (cs : List Char) : Option (List Char) := do
  let (hour, cs) ← digits? 2 0 cs
  let (minute, cs) ← digits? 2 0 (← skip? ':' cs)
  if 23 < hour ∨ 59 < minute then none
  else
    match cs with
    | ':' :: cs => do
      let (second, cs) ← digits? 2 0 cs
      if 60 < second then none else secondFraction? cs
    | cs => some cs

/-- Whether the text is an offset from universal time, or nothing. -/
def isZone : List Char → Bool
  | [] => true
  | ['Z'] => true
  | ['z'] => true
  | mark :: cs =>
    (mark == '+' || mark == '-') &&
      (match (do
          let (hour, cs) ← digits? 2 0 cs
          let (minute, cs) ← digits? 2 0 (← skip? ':' cs)
          pure (hour, minute, cs) : Option (Nat × Nat × List Char)) with
      | some (hour, minute, []) => hour < 24 && minute < 60
      | _ => false)

def isDateMark (c : Char) : Bool :=
  c == 'T' || c == 't' || c == ' '

def dateTime? (cs : List Char) : Option Scalar :=
  let valid :=
    match date? cs with
    | some [] => true
    | some (mark :: cs) =>
      isDateMark mark && (match time? cs with
        | some zone => isZone zone
        | none => false)
    | none => time? cs == some []
  if valid then some .dateTime else none

/-- A decimal integer, a float, or a date and time: what follows the first digits tells which. -/
def numberOrTime? (cs : List Char) : Option Scalar :=
  match (sign cs).2.dropWhile Char.isDigit with
  | [] => integer? cs
  | mark :: rest =>
    if mark = '-' ∨ mark = ':' then dateTime? cs
    else if (mark :: rest).any fun c => c == '.' || isExponentMark c then float? cs
    else if mark = '_' then integer? cs
    else none

def ofChars? (cs : List Char) : Option Scalar :=
  match cs with
  | ['t', 'r', 'u', 'e'] => some (.bool true)
  | ['f', 'a', 'l', 's', 'e'] => some (.bool false)
  | '0' :: 'x' :: digits => integerIn? 16 digits
  | '0' :: 'o' :: digits => integerIn? 8 digits
  | '0' :: 'b' :: digits => integerIn? 2 digits
  | cs =>
    match (sign cs).2 with
    | [] => none
    | ['i', 'n', 'f'] => some (.float true)
    | ['n', 'a', 'n'] => some (.float true)
    | _ => numberOrTime? cs

/-- Whether a character ends a scalar. Quotation marks do not. -/
def endsScalar (c : Char) : Bool :=
  isBlank c || ['\n', '\r', ',', '=', '[', ']', '\x7b', '\x7d', '#'].contains c

/-- The characters of a scalar. A date and a time may be apart by a blank. -/
def split (cs : List Char) : List Char × List Char :=
  let (first, rest) := cs.span fun c => !endsScalar c
  match date? first, rest with
  | some [], ' ' :: c :: more =>
    if c.isDigit then
      let (second, rest) := (c :: more).span fun c => !endsScalar c
      (first ++ ' ' :: second, rest)
    else (first, rest)
  | _, _ => (first, rest)

def scan? (cs : List Char) : Option (Scalar × List Char) := do
  let (scalar, rest) := split cs
  some (← ofChars? scalar, rest)

end Scalar

end AdocProse.Toml
