/-!
The finite numbers of the binary64 format: a sign and a magnitude, which is a natural number
times a power of two. `Magnitude.round` rounds a fraction to the nearest magnitude, halves to the
even one, and is the exact result's only rounding in `mul` and `div`.
-/

namespace AdocProse

/-- The number `mantissa * 2 ^ exponent`. -/
structure Magnitude where
  mantissa : Nat
  exponent : Int
  deriving DecidableEq

namespace Magnitude

def zero : Magnitude :=
  ⟨0, -1074⟩

/-- The natural number nearest to `n / d`, the even one of two. -/
def nearest (n d : Nat) : Nat :=
  let low := n / d
  let rest := 2 * (n % d)
  if rest < d then low
  else if d < rest then low + 1
  else if low % 2 = 0 then low else low + 1

/-- The place that `n / d` is rounded to: 53 binary places are kept, but none below `2 ^ -1074`. -/
def lastPlace (n d : Nat) : Int :=
  let low : Int := max ((n.log2 : Int) - d.log2 - 53) (-1074)
  if d * Nat.pow 2 low.toNat * Nat.pow 2 53 ≤ n * Nat.pow 2 (-low).toNat then low + 1 else low

/-- The magnitude nearest to `n / d`, unless that lies past the largest one. -/
def round (n d : Nat) : Option Magnitude :=
  if n = 0 then some zero
  else
    let e := lastPlace n d
    let m := nearest (n * Nat.pow 2 (-e).toNat) (d * Nat.pow 2 e.toNat)
    let rounded : Magnitude := if m = Nat.pow 2 53 then ⟨Nat.pow 2 52, e + 1⟩ else ⟨m, e⟩
    if rounded.exponent ≤ 971 then some rounded else none

/-- The magnitude nearest to `n / d * 2 ^ e`. -/
def roundScaled (n d : Nat) (e : Int) : Option Magnitude :=
  round (n * Nat.pow 2 e.toNat) (d * Nat.pow 2 (-e).toNat)

def mul (x y : Magnitude) : Option Magnitude :=
  roundScaled (x.mantissa * y.mantissa) 1 (x.exponent + y.exponent)

def div (x y : Magnitude) : Option Magnitude :=
  roundScaled x.mantissa y.mantissa (x.exponent - y.exponent)

/-- The largest natural number that does not exceed the magnitude. -/
def floor (x : Magnitude) : Nat :=
  x.mantissa * Nat.pow 2 x.exponent.toNat / Nat.pow 2 (-x.exponent).toNat

def isZero (x : Magnitude) : Bool :=
  x.mantissa == 0

/-- The magnitude nearest to `n * 10 ^ e`. Powers that decide the answer by their size alone are not
computed. -/
def ofDecimal (n : Nat) (e : Int) : Option Magnitude :=
  let places : Int := n.log2
  if n = 0 then some zero
  else if places + 3 * e < -1100 then some zero
  else if 310 < e then none
  else round (n * Nat.pow 10 e.toNat) (Nat.pow 10 (-e).toNat)

end Magnitude

structure Binary64 where
  negative : Bool
  magnitude : Magnitude
  deriving DecidableEq

namespace Binary64

def isNegative (x : Binary64) : Bool :=
  x.negative && !x.magnitude.isZero

end Binary64

end AdocProse
