import AdocProse.Text.Quoted

/-!
Strings as JSON writes them. The quote, the backslash and the characters below U+0020 are escaped,
with a letter where there is one; everything else stands for itself.
-/

namespace AdocProse.Json.Printer

def escape (c : Char) : List Char :=
  match c with
  | '"' => ['\\', '"']
  | '\\' => ['\\', '\\']
  | '\x08' => ['\\', 'b']
  | '\x0c' => ['\\', 'f']
  | '\n' => ['\\', 'n']
  | '\r' => ['\\', 'r']
  | '\t' => ['\\', 't']
  | c =>
    if c.toNat < 0x20 then
      ['\\', 'u', '0', '0', Quoted.hexDigit (c.toNat / 16), Quoted.hexDigit (c.toNat % 16)]
    else [c]

def string (s : String) : List Char :=
  '"' :: (s.toList.flatMap escape ++ ['"'])

def commaSeparated : List (List Char) → List Char
  | [] => []
  | [item] => item
  | item :: items => item ++ ',' :: commaSeparated items

def array (items : List (List Char)) : List Char :=
  '[' :: (commaSeparated items ++ [']'])

def object (members : List (String × List Char)) : List Char :=
  '\x7b' :: (commaSeparated (members.map fun m => string m.1 ++ ':' :: m.2) ++ ['\x7d'])

end AdocProse.Json.Printer
