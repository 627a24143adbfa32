import AdocProse.Json.Fault
import AdocProse.Text.Utf8

/-!
String literals. `scan` splits the source after the opening quote into pieces, each a byte or an
escaped 16-bit unit, up to the closing quote or the first thing that cannot stand in a string.
`text` reads the pieces: escaped units beyond the basic plane come in pairs, and the bytes are
UTF-8.
-/

namespace AdocProse.Json

inductive Piece where
  | byte (b : UInt8)
  | unit (u : Nat)
  deriving DecidableEq

/-- A literal is closed by a quote unless it has a fault. -/
structure StringLit where
  pieces : List Piece
  fault : Option Fault
  deriving DecidableEq

namespace StringLit

def cons (p : Piece) (s : StringLit) : StringLit :=
  ⟨p :: s.pieces, s.fault⟩

def simpleEscape? : Char → Option UInt8
  | '"' => some 34
  | '\\' => some 92
  | '/' => some 47
  | 'b' => some 8
  | 'f' => some 12
  | 'n' => some 10
  | 'r' => some 13
  | 't' => some 9
  | _ => none

def hexValue? (b : UInt8) : Option Nat :=
  let n := b.toNat
  if 48 ≤ n ∧ n ≤ 57 then some (n - 48)
  else if 97 ≤ n ∧ n ≤ 102 then some (n - 87)
  else if 65 ≤ n ∧ n ≤ 70 then some (n - 55)
  else none

def unit? (a b c d : UInt8) : Option Nat := do
  let a ← hexValue? a
  let b ← hexValue? b
  let c ← hexValue? c
  let d ← hexValue? d
  pure (((a * 16 + b) * 16 + c) * 16 + d)

/-- The literal behind an opening quote, and what follows it. Nothing is read past a fault. -/
def scan : List UInt8 → StringLit × List UInt8
  | [] => (⟨[], some .ended⟩, [])
  | b :: bs =>
    if b = 34 then (⟨[], none⟩, bs)
    else if b = 92 then
      match bs with
      | [] => (⟨[], some .ended⟩, [])
      | e :: bs =>
        if e = 117 then
          match bs with
          | h₁ :: h₂ :: h₃ :: h₄ :: bs =>
            match unit? h₁ h₂ h₃ h₄ with
            | some u => ((scan bs).1.cons (.unit u), (scan bs).2)
            | none => (⟨[], some .malformed⟩, [])
          | _ => (⟨[], some .ended⟩, [])
        else
          match simpleEscape? (Utf8.letter e) with
          | some c => ((scan bs).1.cons (.byte c), (scan bs).2)
          | none => (⟨[], some .malformed⟩, [])
    else if b < 32 then (⟨[], some .malformed⟩, [])
    else ((scan bs).1.cons (.byte b), (scan bs).2)

def isLead (u : Nat) : Bool :=
  0xD800 ≤ u && u ≤ 0xDBFF

def isTrail (u : Nat) : Bool :=
  0xDC00 ≤ u && u ≤ 0xDFFF

def paired (lead trail : Nat) : Char :=
  Char.ofNat (0x10000 + (lead - 0xD800) * 0x400 + (trail - 0xDC00))

/-- The bytes that the pieces stand for, `lead` being a unit that still waits for its other half. -/
def bytesFrom (fault : Option Fault) : Option Nat → List Piece → Except Fault (List UInt8)
  | none, [] =>
    match fault with
    | none => .ok []
    | some f => .error f
  | some _, [] => .error (fault.getD .malformed)
  | none, .byte b :: ps => (b :: ·) <$> bytesFrom fault none ps
  | some _, .byte _ :: _ => .error .malformed
  | none, .unit u :: ps =>
    if isLead u then bytesFrom fault (some u) ps
    else if isTrail u then .error .malformed
    else (String.utf8EncodeChar (Char.ofNat u) ++ ·) <$> bytesFrom fault none ps
  | some lead, .unit u :: ps =>
    if isTrail u then
      (String.utf8EncodeChar (paired lead u) ++ ·) <$> bytesFrom fault none ps
    else .error .malformed

def text (s : StringLit) : Except Fault String := do
  let bytes ← bytesFrom s.fault none s.pieces
  match Utf8.decode? bytes with
  | some t => .ok t
  | none => .error .malformed

end StringLit

end AdocProse.Json
