import AdocProse.Text.Shown

/-!
A string as a message quotes it: between double quotes, with the quote, the backslash and every
character that is not shown replaced by an escape.
-/

namespace AdocProse.Quoted

def hexDigit (n : Nat) : Char :=
  if n < 10 then Char.ofNat (48 + n) else Char.ofNat (87 + n)

/-- Lower case hexadecimal digits without padding. -/
def hex (n : Nat) : List Char :=
  if n < 16 then [hexDigit n] else hex (n / 16) ++ [hexDigit (n % 16)]

def escape (c : Char) : List Char :=
  match c.toNat with
  | 0 => ['\\', '0']
  | 9 => ['\\', 't']
  | 10 => ['\\', 'n']
  | 13 => ['\\', 'r']
  | 34 => ['\\', '"']
  | 92 => ['\\', '\\']
  | n =>
    if n < 0x20 || Shown.isHidden c then ['\\', 'u', '\x7b'] ++ hex n ++ ['\x7d'] else [c]

def encode (cs : List Char) : List Char :=
  '"' :: (cs.flatMap escape ++ ['"'])

end AdocProse.Quoted

namespace AdocProse

def quoted (s : String) : String :=
  String.ofList (Quoted.encode s.toList)

end AdocProse
