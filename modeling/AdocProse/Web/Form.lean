import AdocProse.Text.Utf8

/-!
Forms as a request's body carries them: names and values with `=` between them and `&` between
the pairs. Letters, digits and `*-._` stand for themselves, a blank is written `+`, and every other
byte as two upper case hexadecimal digits behind a percent sign.
-/

namespace AdocProse.Form

def upperHex (n : Nat) : Char :=
  if n < 10 then Char.ofNat (48 + n) else Char.ofNat (55 + n)

def percent (b : UInt8) : List Char :=
  ['%', upperHex (b.toNat / 16), upperHex (b.toNat % 16)]

def isPlain (c : Char) : Bool :=
  c.isAlphanum || c == '*' || c == '-' || c == '.' || c == '_'

def encodeByte (b : UInt8) : List Char :=
  if Utf8.letter b = ' ' then ['+']
  else if isPlain (Utf8.letter b) then [Utf8.letter b]
  else percent b

def encodeString (s : String) : List Char :=
  (Utf8.encode s).flatMap encodeByte

def encodePair (p : String × String) : List Char :=
  encodeString p.1 ++ '=' :: encodeString p.2

def encodeChars : List (String × String) → List Char
  | [] => []
  | [p] => encodePair p
  | p :: ps => encodePair p ++ '&' :: encodeChars ps

def encode (ps : List (String × String)) : String :=
  String.ofList (encodeChars ps)

end AdocProse.Form
