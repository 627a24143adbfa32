import AdocProse.Json.Numeral
import AdocProse.Json.StringLit

/-!
The tokens of a JSON document. What is no token is `broken`, and nothing is read behind it.
-/

namespace AdocProse.Json

inductive Token where
  | openArray
  | closeArray
  | openObject
  | closeObject
  | comma
  | colon
  | null
  | bool (b : Bool)
  | number (n : Numeral)
  | badNumber (f : Fault)
  | string (s : StringLit)
  | broken (f : Fault)
  deriving DecidableEq

namespace Token

def isBlank (b : UInt8) : Bool :=
  b == 32 || b == 9 || b == 10 || b == 13

def scanWord : List Char → List UInt8 → Except Fault (List UInt8)
  | [], bs => .ok bs
  | _ :: _, [] => .error .ended
  | c :: cs, b :: bs => if Utf8.letter b = c then scanWord cs bs else .error .malformed

def word (t : Token) (rest : List Char) (bs : List UInt8) : Token × List UInt8 :=
  match scanWord rest bs with
  | .ok bs => (t, bs)
  | .error f => (.broken f, [])

def numeral (negative : Bool) (bs : List UInt8) : Token × List UInt8 :=
  match Numeral.scan negative bs with
  | .ok (n, bs) => (.number n, bs)
  | .error f => (.badNumber f, [])

def scan (b : UInt8) (bs : List UInt8) : Token × List UInt8 :=
  match Utf8.letter b with
  | '[' => (.openArray, bs)
  | ']' => (.closeArray, bs)
  | '\x7b' => (.openObject, bs)
  | '\x7d' => (.closeObject, bs)
  | ',' => (.comma, bs)
  | ':' => (.colon, bs)
  | 'n' => word .null ['u', 'l', 'l'] bs
  | 't' => word (.bool true) ['r', 'u', 'e'] bs
  | 'f' => word (.bool false) ['a', 'l', 's', 'e'] bs
  | '"' =>
    let (s, bs) := StringLit.scan bs
    (.string s, bs)
  | '-' => numeral true bs
  | c =>
    if (Digit.ofChar? c).isSome then numeral false (b :: bs)
    else (.broken .malformed, [])

def listFor : Nat → List UInt8 → List Token
  | 0, _ => []
  | _ + 1, [] => []
  | n + 1, b :: bs =>
    if isBlank b then listFor n bs
    else
      let (t, rest) := scan b bs
      t :: listFor n rest

/-- Every token takes at least one byte. -/
def list (bytes : List UInt8) : List Token :=
  listFor bytes.length bytes

end Token

end AdocProse.Json
