import AdocProse.Number.Binary64
import AdocProse.Number.Decimal

/-!
The fewest decimal digits that identify a binary64 number. A decimal identifies a magnitude when it
lies between the midpoints to the two neighbouring magnitudes, the midpoints included exactly when
the mantissa is even. Of the decimals with the fewest digits the nearest is taken. Two layouts of
the digits are given: `positional`, without an exponent, and `general`, which always shows a point
or an exponent.
-/

namespace AdocProse

/-- Which of two decimals at the same distance is taken. -/
inductive Tie where
  | toEven
  | up

namespace Shortest

/-- The number `digits * 10 ^ exponent`. -/
structure Decimal10 where
  digits : Nat
  exponent : Int

/-- Compares `a * 10 ^ i` with `n * 2 ^ j`. -/
def compareScaled (a : Nat) (i : Int) (n : Nat) (j : Int) : Ordering :=
  compare (a * Nat.pow 10 i.toNat * Nat.pow 2 (-j).toNat)
    (n * Nat.pow 2 j.toNat * Nat.pow 10 (-i).toNat)

/-- The gap below a power of two is half the gap above it. -/
def narrowBelow (x : Magnitude) : Bool :=
  x.mantissa == Nat.pow 2 52 && decide (-1074 < x.exponent)

def identifies (x : Magnitude) (d : Decimal10) : Bool :=
  let low := if narrowBelow x then 4 * x.mantissa - 1 else 4 * x.mantissa - 2
  let high := 4 * x.mantissa + 2
  let closed := x.mantissa % 2 == 0
  let atLow := compareScaled d.digits d.exponent low (x.exponent - 2)
  let atHigh := compareScaled d.digits d.exponent high (x.exponent - 2)
  (atLow == .gt || (closed && atLow == .eq)) && (atHigh == .lt || (closed && atHigh == .eq))

/-- The least `k` with `x < 10 ^ k`, found from the binary logarithm. -/
def scale (x : Magnitude) : Int :=
  let places : Int := x.mantissa.log2 + x.exponent
  let start := Int.fdiv (places * 30103) 100000
  let fits (k : Int) : Bool := compareScaled 1 k x.mantissa x.exponent == .gt
  if fits start then start
  else if fits (start + 1) then start + 1
  else start + 2

/-- The nearest decimal with the last digit at `10 ^ i` that identifies the magnitude. -/
def onGrid? (tie : Tie) (x : Magnitude) (i : Int) : Option Decimal10 :=
  let low := x.mantissa * Nat.pow 2 x.exponent.toNat * Nat.pow 10 (-i).toNat /
    (Nat.pow 2 (-x.exponent).toNat * Nat.pow 10 i.toNat)
  let below : Decimal10 := ⟨low, i⟩
  let above : Decimal10 := ⟨low + 1, i⟩
  if identifies x below then
    if identifies x above then
      match compareScaled (2 * low + 1) i (2 * x.mantissa) x.exponent, tie with
      | .gt, _ => some below
      | .lt, _ => some above
      | .eq, .up => some above
      | .eq, .toEven => if low % 2 = 0 then some below else some above
    else some below
  else if identifies x above then some above
  else none

/-- Seventeen digits always identify a magnitude. -/
def decimal (tie : Tie) (x : Magnitude) : Decimal10 :=
  let k := scale x
  ((List.range 17).findSome? fun (n : Nat) => onGrid? tie x (k - n - 1)).getD
    ⟨x.mantissa * Nat.pow 2 x.exponent.toNat * Nat.pow 5 (-x.exponent).toNat, min x.exponent 0⟩

/-- The digits without zeros at the end, and the power of ten of the last one. -/
def significant (tie : Tie) (x : Magnitude) : List Char × Int :=
  let d := decimal tie x
  let ds := (Decimal.chars d.digits).reverse
  let zeros := ds.takeWhile (· == '0')
  ((ds.drop zeros.length).reverse, d.exponent + zeros.length)

def zeros (n : Int) : List Char :=
  List.replicate n.toNat '0'

/-- The digits `ds` with a point before the last `places` of them. -/
def pointed (ds : List Char) (places : Nat) : List Char :=
  ds.take (ds.length - places) ++ '.' :: ds.drop (ds.length - places)

def positionalChars (ds : List Char) (e : Int) : List Char :=
  let point : Int := ds.length + e
  if 0 ≤ e then ds ++ zeros e
  else if 0 < point then pointed ds (-e).toNat
  else ['0', '.'] ++ zeros (-point) ++ ds

/-- An exponent always has its sign. -/
def exponentChars (e : Int) : List Char :=
  'e' :: (if e < 0 then '-' else '+') :: Decimal.chars e.natAbs

/-- Without an exponent when the point stands at most 16 digits after the first digit and at most
four zeros before it. -/
def generalChars (ds : List Char) (e : Int) : List Char :=
  let point : Int := ds.length + e
  let exponent := exponentChars (point - 1)
  if 0 ≤ e ∧ point ≤ 16 then ds ++ zeros e ++ ['.', '0']
  else if (0 < point ∧ point ≤ 16) ∨ (-5 < point ∧ point ≤ 0) then positionalChars ds e
  else
    match ds with
    | [d] => d :: exponent
    | d :: rest => d :: '.' :: (rest ++ exponent)
    | [] => exponent

end Shortest

namespace Binary64

def signChars (x : Binary64) : List Char :=
  if x.negative then ['-'] else []

/-- Every digit is written out, however many zeros that takes. -/
def positional (x : Binary64) : String :=
  let body :=
    if x.magnitude.isZero then ['0']
    else
      let (ds, e) := Shortest.significant .up x.magnitude
      Shortest.positionalChars ds e
  String.ofList (x.signChars ++ body)

def general (x : Binary64) : String :=
  let body :=
    if x.magnitude.isZero then ['0', '.', '0']
    else
      let (ds, e) := Shortest.significant .toEven x.magnitude
      Shortest.generalChars ds e
  String.ofList (x.signChars ++ body)

end Binary64

end AdocProse
