/-!
Decimal digits: reading them off a sequence, the number they write, and the digits of a number
without leading zeros.
-/

namespace AdocProse

abbrev Digit := Fin 10

namespace Digit

def ofChar? (c : Char) : Option Digit :=
  if h : 48 ≤ c.toNat ∧ c.toNat < 58 then some ⟨c.toNat - 48, by omega⟩ else none

def toChar (d : Digit) : Char :=
  Char.ofNat (48 + d.val)

end Digit

namespace Decimal

def span {α : Type} (digit? : α → Option Digit) : List α → List Digit × List α
  | [] => ([], [])
  | a :: as =>
    match digit? a with
    | none => ([], a :: as)
    | some d => (d :: (span digit? as).1, (span digit? as).2)

def value (ds : List Digit) : Nat :=
  ds.foldl (fun n d => 10 * n + d.val) 0

def digits (n : Nat) : List Digit :=
  if h : n < 10 then [⟨n, h⟩]
  else digits (n / 10) ++ [⟨n % 10, Nat.mod_lt n (by decide)⟩]

def chars (n : Nat) : List Char :=
  (digits n).map Digit.toChar

def text (n : Nat) : String :=
  String.ofList (chars n)

end Decimal

end AdocProse
