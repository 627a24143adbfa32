import AdocProse.Json.Fault
import AdocProse.Text.Utf8

/-!
Numbers as JSON writes them. A numeral without fraction and exponent that fits 64 bits is an
integer. Every other numeral is a binary64 number: its leading digits, as many as fit 64 bits, are
rounded, and the result is multiplied or divided once by the power of ten that remains.
-/

namespace AdocProse.Json

structure Exponent where
  negative : Bool
  digits : List Digit
  deriving DecidableEq

/-- The fraction is empty when the numeral has no point. -/
structure Numeral where
  negative : Bool
  whole : List Digit
  fraction : List Digit
  exponent : Option Exponent
  deriving DecidableEq

inductive Number where
  | natural (n : Nat)
  /-- The integer below zero with the given magnitude. -/
  | negative (n : Nat)
  | float (x : Binary64)
  deriving DecidableEq

namespace Numeral

def digit? (b : UInt8) : Option Digit :=
  Digit.ofChar? (Utf8.letter b)

def scanDigits (bs : List UInt8) : Except Fault (List Digit × List UInt8) :=
  match Decimal.span digit? bs with
  | ([], rest) => .error (Fault.atRest rest)
  | found => .ok found

def scanWhole (bs : List UInt8) : Except Fault (List Digit × List UInt8) := do
  let (ds, rest) ← scanDigits bs
  match ds with
  | 0 :: _ :: _ => .error .malformed
  | _ => .ok (ds, rest)

def scanFraction : List UInt8 → Except Fault (List Digit × List UInt8)
  | [] => .ok ([], [])
  | b :: bs => if Utf8.letter b = '.' then scanDigits bs else .ok ([], b :: bs)

def scanSign : List UInt8 → Bool × List UInt8
  | [] => (false, [])
  | b :: bs =>
    if Utf8.letter b = '-' then (true, bs)
    else if Utf8.letter b = '+' then (false, bs)
    else (false, b :: bs)

def scanExponent : List UInt8 → Except Fault (Option Exponent × List UInt8)
  | [] => .ok (none, [])
  | b :: bs =>
    if Utf8.letter b = 'e' ∨ Utf8.letter b = 'E' then do
      let (negative, bs) := scanSign bs
      let (ds, rest) ← scanDigits bs
      .ok (some ⟨negative, ds⟩, rest)
    else .ok (none, b :: bs)

def scan (negative : Bool) (bs : List UInt8) : Except Fault (Numeral × List UInt8) := do
  let (whole, bs) ← scanWhole bs
  let (fraction, bs) ← scanFraction bs
  let (exponent, bs) ← scanExponent bs
  .ok (⟨negative, whole, fraction, exponent⟩, bs)

/-- Appends digits to `n` as long as the result fits 64 bits; the other digits are left. -/
def absorb : Nat → List Digit → Nat × List Digit
  | n, [] => (n, [])
  | n, d :: ds => if 10 * n + d.val < UInt64.size then absorb (10 * n + d.val) ds else (n, d :: ds)

/-- Divides by `10 ^ 308` the given number of times, then by `10 ^ k`. -/
def shrink : Nat → Nat → Magnitude → Option Magnitude
  | 0, k, x => do x.div (← Magnitude.round (Nat.pow 10 k) 1)
  | n + 1, k, x =>
    if x.isZero then some x
    else do shrink n k (← x.div (← Magnitude.round (Nat.pow 10 308) 1))

def grow (k : Nat) (x : Magnitude) : Option Magnitude :=
  if k ≤ 308 then do x.mul (← Magnitude.round (Nat.pow 10 k) 1)
  else if x.isZero then some x
  else none

/-- The magnitude of `n * 10 ^ e`, computed in binary64. -/
def scaled (n : Nat) (e : Int) : Option Magnitude := do
  let x ← Magnitude.round n 1
  if 0 ≤ e then grow e.toNat x
  else
    let k := (-e).toNat
    let times := (k - 1) / 308
    shrink times (k - 308 * times) x

/-- An exponent past 31 bits leaves no digits, unless it is a positive one of a number that has
some, and then the number is out of range. -/
def magnitude? (n : Nat) (e : Int) : Option Exponent → Option Magnitude
  | none => scaled n e
  | some x =>
    let k := Decimal.value x.digits
    if k < 0x80000000 then scaled n (if x.negative then e - k else e + k)
    else if x.negative ∨ n = 0 then some Magnitude.zero
    else none

def toNumber (x : Numeral) : Except Fault Number :=
  let (n, dropped) := absorb 0 x.whole
  if dropped = [] ∧ x.fraction = [] ∧ x.exponent = none then
    if x.negative then
      if n = 0 ∨ 0x8000000000000000 < n then
        match Magnitude.round n 1 with
        | some m => .ok (.float ⟨true, m⟩)
        | none => .error .malformed
      else .ok (.negative n)
    else .ok (.natural n)
  else
    let (n, left) := absorb n x.fraction
    let e : Int := dropped.length - (x.fraction.length - left.length : Nat)
    match magnitude? n e x.exponent with
    | some m => .ok (.float ⟨x.negative, m⟩)
    | none => .error .malformed

end Numeral

end AdocProse.Json
