import AdocProse.Json.Token

/-!
The values of a JSON document, as far as the document is well formed. The first thing that cannot
stand where it stands ends the document there: every container that is still open ends with that
fault, and a value that is missing is `broken`. So a reader that goes through a value in order
meets what is wrong exactly where it stands in the document.
-/

namespace AdocProse.Json

inductive Value where
  | null
  | bool (b : Bool)
  | number (n : Numeral)
  | badNumber (f : Fault)
  | string (s : StringLit)
  | array (items : List Value) (ending : Option Fault)
  | object (members : List (StringLit × Value)) (ending : Option Fault)
  | broken (f : Fault)

/-- A container that is still open, its latest part first. -/
inductive Frame where
  | array (items : List Value)
  | object (members : List (StringLit × Value)) (key : StringLit)

/-- What comes next, inside the open containers, the innermost first. -/
inductive Awaiting where
  | value (frames : List Frame)
  /-- An item or the end of an array that was just opened. -/
  | item (frames : List Frame)
  /-- A key, or the end of the object if that was just opened. -/
  | member (members : List (StringLit × Value)) (frames : List Frame)
  | colon (members : List (StringLit × Value)) (key : StringLit) (frames : List Frame)
  /-- What follows the value: a comma or the end of the innermost container. -/
  | next (value : Value) (frames : List Frame)

/-- The root value, and whether anything follows it. -/
structure Document where
  root : Value
  trailing : Bool

namespace Awaiting

def abandon (f : Fault) : Value → List Frame → Document
  | v, [] => ⟨v, false⟩
  | v, .array items :: frames => abandon f (.array (v :: items).reverse (some f)) frames
  | v, .object members key :: frames =>
    abandon f (.object ((key, v) :: members).reverse (some f)) frames

def stop (f : Fault) : Awaiting → Document
  | .value frames => abandon f (.broken f) frames
  | .item frames => abandon f (.array [] (some f)) frames
  | .member members frames => abandon f (.object members.reverse (some f)) frames
  | .colon members key frames =>
    abandon f (.object ((key, .broken f) :: members).reverse (some f)) frames
  | .next v [] => ⟨v, f == .malformed⟩
  | .next v (.array items :: frames) => abandon f (.array (v :: items).reverse (some f)) frames
  | .next v (.object members key :: frames) =>
    abandon f (.object ((key, v) :: members).reverse (some f)) frames

def begin (frames : List Frame) : Token → Except Fault Awaiting
  | .null => .ok (.next .null frames)
  | .bool b => .ok (.next (.bool b) frames)
  | .number n => .ok (.next (.number n) frames)
  | .badNumber f => .ok (.next (.badNumber f) frames)
  | .string s => .ok (.next (.string s) frames)
  | .openArray => .ok (.item frames)
  | .openObject => .ok (.member [] frames)
  | .broken f => .error f
  | _ => .error .malformed

def step : Awaiting → Token → Except Fault Awaiting
  | .value frames, t => begin frames t
  | .item frames, .closeArray => .ok (.next (.array [] none) frames)
  | .item frames, t => begin (.array [] :: frames) t
  | .member [] frames, .closeObject => .ok (.next (.object [] none) frames)
  | .member members frames, .string s => .ok (.colon members s frames)
  | .member _ _, _ => .error .malformed
  | .colon members key frames, .colon => .ok (.value (.object members key :: frames))
  | .colon _ _ _, _ => .error .malformed
  | .next v (.array items :: frames), .comma => .ok (.value (.array (v :: items) :: frames))
  | .next v (.array items :: frames), .closeArray =>
    .ok (.next (.array (v :: items).reverse none) frames)
  | .next v (.object members key :: frames), .comma => .ok (.member ((key, v) :: members) frames)
  | .next v (.object members key :: frames), .closeObject =>
    .ok (.next (.object ((key, v) :: members).reverse none) frames)
  | .next _ _, _ => .error .malformed

def run : Awaiting → List Token → Document
  | a, [] => a.stop .ended
  | a, t :: ts =>
    match a.step t with
    | .ok a => run a ts
    | .error f => a.stop f

end Awaiting

namespace Document

def ofTokens (ts : List Token) : Document :=
  Awaiting.run (.value []) ts

def ofBytes (bytes : List UInt8) : Document :=
  ofTokens (Token.list bytes)

end Document

namespace Value

mutual

/-- The first fault in a value that need only be well formed: units of strings may stand alone, and
bytes may be any. -/
def skipFault : Value → Option Fault
  | .badNumber _ => some .malformed
  | .string s => s.fault
  | .array items ending => (skipFaultOfItems items).or ending
  | .object members ending => (skipFaultOfMembers members).or ending
  | .broken f => some f
  | .null | .bool _ | .number _ => none

def skipFaultOfItems : List Value → Option Fault
  | [] => none
  | v :: vs => v.skipFault.or (skipFaultOfItems vs)

def skipFaultOfMembers : List (StringLit × Value) → Option Fault
  | [] => none
  | (key, v) :: ms => key.fault.or (v.skipFault.or (skipFaultOfMembers ms))

end

/-- The value as a message names it. The message for a value with a fault is the fault's own. -/
def found : Value → Except Fault Found
  | .null => .ok .null
  | .bool b => .ok (.boolean b)
  | .number n =>
    match n.toNumber with
    | .ok (.natural k) => .ok (.natural k)
    | .ok (.negative k) => .ok (.negative k)
    | .ok (.float x) => .ok (.float x)
    | .error f => .error f
  | .badNumber f => .error f
  | .string s => Found.string <$> s.text
  | .array _ _ => .ok .sequence
  | .object _ _ => .ok .map
  | .broken f => .error f

end Value

end AdocProse.Json
