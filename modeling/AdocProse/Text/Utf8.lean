/-!
UTF-8. `encode` writes the bytes of a string; `units` reads any bytes as characters and stray
parts, where a stray part is a longest run of bytes that begins a character but does not
complete one, or else a single byte. `decode?` refuses bytes with stray parts and `decodeLossy`
puts U+FFFD for each of them.
-/

namespace AdocProse.Utf8

def encode (s : String) : List UInt8 :=
  s.toList.flatMap String.utf8EncodeChar

/-- The character that a byte below 0x80 encodes. Other bytes give characters that are not ASCII. -/
def letter (b : UInt8) : Char :=
  Char.ofNat b.toNat

/-- A character that still misses `missing + 1` bytes, the next one between `low` and `high`. -/
structure Begun where
  missing : Nat
  value : Nat
  low : Nat
  high : Nat
  deriving DecidableEq

inductive Lead where
  | complete (c : Char)
  | begun (b : Begun)
  | stray
  deriving DecidableEq

/-- The ranges of the second byte leave out overlong forms, surrogates and what is past U+10FFFF. -/
def lead (b : UInt8) : Lead :=
  let n := b.toNat
  if n < 0x80 then .complete (Char.ofNat n)
  else if n < 0xC2 then .stray
  else if n < 0xE0 then .begun ⟨0, n - 0xC0, 0x80, 0xBF⟩
  else if n = 0xE0 then .begun ⟨1, 0, 0xA0, 0xBF⟩
  else if n = 0xED then .begun ⟨1, 0xD, 0x80, 0x9F⟩
  else if n < 0xF0 then .begun ⟨1, n - 0xE0, 0x80, 0xBF⟩
  else if n = 0xF0 then .begun ⟨2, 0, 0x90, 0xBF⟩
  else if n < 0xF4 then .begun ⟨2, n - 0xF0, 0x80, 0xBF⟩
  else if n = 0xF4 then .begun ⟨2, 4, 0x80, 0x8F⟩
  else .stray

/-- Reads on from a character that may have begun; `none` stands for a stray part. -/
def unitsFrom : Option Begun → List UInt8 → List (Option Char)
  | none, [] => []
  | some _, [] => [none]
  | none, b :: bs =>
    match lead b with
    | .complete c => some c :: unitsFrom none bs
    | .begun p => unitsFrom (some p) bs
    | .stray => none :: unitsFrom none bs
  | some p, b :: bs =>
    if p.low ≤ b.toNat ∧ b.toNat ≤ p.high then
      let value := p.value * 64 + (b.toNat - 0x80)
      match p.missing with
      | 0 => some (Char.ofNat value) :: unitsFrom none bs
      | k + 1 => unitsFrom (some ⟨k, value, 0x80, 0xBF⟩) bs
    else
      match lead b with
      | .complete c => none :: some c :: unitsFrom none bs
      | .begun q => none :: unitsFrom (some q) bs
      | .stray => none :: none :: unitsFrom none bs

def units (bytes : List UInt8) : List (Option Char) :=
  unitsFrom none bytes

def decode? (bytes : List UInt8) : Option String :=
  ((units bytes).mapM id).map String.ofList

def decodeLossy (bytes : List UInt8) : String :=
  String.ofList ((units bytes).map (·.getD (Char.ofNat 0xFFFD)))

def size (s : String) : Nat :=
  s.utf8ByteSize

def total : List String → Nat
  | [] => 0
  | s :: ss => size s + total ss

end AdocProse.Utf8
