import AdocProse.Json.Value
import AdocProse.Proofs.Json.Token
import Mathlib.Data.List.Forall2

/-! The grammar of JSON documents: how each token is written, with blanks around it, and the tokens of
each value. A document that is written so is read as that value, so it is written for one value only. -/

namespace AdocProse.Json

open Utf8 (bytes)

/-- A value as it is written in a well-formed document: its strings may use any escapes. -/
inductive Term where
  | null
  | bool (b : Bool)
  | number (n : Numeral)
  | string (ps : List Piece)
  | array (items : List Term)
  | object (members : List (List Piece × Term))

inductive Piece.Spelled : Piece → List UInt8 → Prop
  | plain {b : UInt8} (h : StringLit.Plain b) : Spelled (.byte b) [b]
  | escaped {letter b : UInt8}
      (h : (letter, b) ∈ [(34, 34), (92, 92), (47, 47), (98, 8), (102, 12), (110, 10), (114, 13), (116, 9)]) :
      Spelled (.byte b) [92, letter]
  | coded {a b c d : UInt8} {u : Nat} (h : StringLit.unit? a b c d = some u) :
      Spelled (.unit u) [92, 117, a, b, c, d]

inductive Exponent.Spelled : Option Exponent → List Char → Prop
  | absent : Spelled none []
  | present {x : Exponent} {e : Char} {sign : List Char} (he : e = 'e' ∨ e = 'E')
      (hsign : if x.negative then sign = ['-'] else sign = [] ∨ sign = ['+']) (hne : x.digits ≠ []) :
      Spelled (some x) (e :: (sign ++ x.digits.map Digit.toChar))

/-- A numeral has a whole part without a zero in front of other digits. -/
inductive Numeral.Spelled (n : Numeral) : List Char → Prop
  | mk {exponent : List Char} (hne : n.whole ≠ []) (hzero : ∀ ds, n.whole = 0 :: ds → ds = [])
      (hexponent : Exponent.Spelled n.exponent exponent) :
      Spelled n ((if n.negative then ['-'] else []) ++ n.whole.map Digit.toChar ++
        (if n.fraction = [] then [] else '.' :: n.fraction.map Digit.toChar) ++ exponent)

namespace Token

/-- The tokens that are written in one way only. -/
def fixed : List (Token × List Char) :=
  [(.openArray, ['[']), (.closeArray, [']']), (.openObject, ['\x7b']), (.closeObject, ['\x7d']),
   (.comma, [',']), (.colon, [':']), (.null, ['n', 'u', 'l', 'l']), (.bool true, ['t', 'r', 'u', 'e']),
   (.bool false, ['f', 'a', 'l', 's', 'e'])]

inductive Spelled : Token → List UInt8 → Prop
  | fixed {t : Token} {cs : List Char} (h : (t, cs) ∈ fixed) : Spelled t (bytes cs)
  | string {ps : List Piece} {parts : List (List UInt8)} (h : List.Forall₂ Piece.Spelled ps parts) :
      Spelled (.string ⟨ps, none⟩) (34 :: (parts.flatten ++ [34]))
  | number {n : Numeral} {cs : List Char} (h : n.Spelled cs) : Spelled (.number n) (bytes cs)

def Blanks (bs : List UInt8) : Prop :=
  ∀ b ∈ bs, isBlank b = true

/-- The bytes are the tokens, written one after the other with any blanks around them. -/
inductive Laid : List Token → List UInt8 → Prop
  | nil {blanks : List UInt8} (h : Blanks blanks) : Laid [] blanks
  | cons {t : Token} {ts : List Token} {blanks bs rest : List UInt8} (hblanks : Blanks blanks)
      (ht : t.Spelled bs) (hts : Laid ts rest) : Laid (t :: ts) (blanks ++ (bs ++ rest))

end Token

namespace Term

/-- What holds for a term if it holds for its items and the values of its members holds for all. -/
@[elab_as_elim]
theorem induct {P : Term → Prop} (null : P .null) (bool : ∀ b, P (.bool b))
    (number : ∀ n, P (.number n)) (string : ∀ ps, P (.string ps))
    (array : ∀ items, (∀ x ∈ items, P x) → P (.array items))
    (object : ∀ members, (∀ m ∈ members, P m.2) → P (.object members)) (x : Term) : P x :=
  @Term.rec P (fun items => ∀ x ∈ items, P x) (fun members => ∀ m ∈ members, P m.2) (fun m => P m.2)
    null bool number string array object (fun _ h => absurd h List.not_mem_nil)
    (fun _ _ hx hxs y hy => (List.mem_cons.mp hy).elim (fun h => h ▸ hx) (hxs y))
    (fun _ h => absurd h List.not_mem_nil)
    (fun _ _ hm hms m h => (List.mem_cons.mp h).elim (fun h => h ▸ hm) (hms m))
    (fun _ _ h => h) x

mutual

def value : Term → Value
  | .null => .null
  | .bool b => .bool b
  | .number n => .number n
  | .string ps => .string ⟨ps, none⟩
  | .array items => .array (values items) none
  | .object members => .object (memberValues members) none

def values : List Term → List Value
  | [] => []
  | x :: xs => value x :: values xs

def memberValues : List (List Piece × Term) → List (StringLit × Value)
  | [] => []
  | (key, x) :: ms => (⟨key, none⟩, value x) :: memberValues ms

end

mutual

def tokens : Term → List Token
  | .null => [.null]
  | .bool b => [.bool b]
  | .number n => [.number n]
  | .string ps => [.string ⟨ps, none⟩]
  | .array items => .openArray :: ([.comma].intercalate (itemTokens items) ++ [.closeArray])
  | .object members => .openObject :: ([.comma].intercalate (memberTokens members) ++ [.closeObject])

def itemTokens : List Term → List (List Token)
  | [] => []
  | x :: xs => tokens x :: itemTokens xs

def memberTokens : List (List Piece × Term) → List (List Token)
  | [] => []
  | (key, x) :: ms => (.string ⟨key, none⟩ :: .colon :: tokens x) :: memberTokens ms

end

/-- The bytes are a document with the term as its value. -/
def Spelled (x : Term) (document : List UInt8) : Prop :=
  Token.Laid x.tokens document

end Term

/-- What a document says, whatever escapes it uses. -/
inductive Datum where
  | null
  | bool (b : Bool)
  | number (n : Numeral)
  | string (s : String)
  | array (items : List Datum)
  | object (members : List (String × Datum))

namespace Term

mutual

def datum : Term → Except Fault Datum
  | .null => .ok .null
  | .bool b => .ok (.bool b)
  | .number n => .ok (.number n)
  | .string ps => .string <$> StringLit.text ⟨ps, none⟩
  | .array items => .array <$> data items
  | .object members => .object <$> memberData members

def data : List Term → Except Fault (List Datum)
  | [] => .ok []
  | x :: xs => do return (← datum x) :: (← data xs)

def memberData : List (List Piece × Term) → Except Fault (List (String × Datum))
  | [] => .ok []
  | (key, x) :: ms => do return (← StringLit.text ⟨key, none⟩, ← datum x) :: (← memberData ms)

end

end Term

def Says (document : List UInt8) (d : Datum) : Prop :=
  ∃ x : Term, x.Spelled document ∧ x.datum = .ok d

end AdocProse.Json
