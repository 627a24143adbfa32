import AdocProse.Configuration.Lookup

/-!
How errors are reported. An error has a chain of causes: a single cause stands below the heading,
indented; several are numbered from zero.
-/

namespace AdocProse.CommandLine

structure Report where
  code : Nat
  output : String
  errors : String
  deriving DecidableEq

def blanks (n : Nat) : List Char :=
  List.replicate n ' '

/-- The lines of a text below each other, the first behind `first` and the others behind `later`. -/
def indented (first later : List Char) (text : String) : List Char :=
  first ++ Pieces.join '\n' (match Pieces.split '\n' text.toList with
    | [] => []
    | line :: lines => line :: lines.map (later ++ ·))

/-- Numbers are written in five columns. -/
def numbered : Nat → List String → List Char
  | _, [] => []
  | n, cause :: causes =>
    let digits := Decimal.chars n
    '\n' :: (indented (blanks (5 - digits.length) ++ digits ++ [':', ' ']) (blanks 7) cause ++
      numbered (n + 1) causes)

def causesText : List String → List Char
  | [] => []
  | [cause] => "\n\nCaused by:\n".toList ++ indented (blanks 4) (blanks 4) cause
  | causes => "\n\nCaused by:".toList ++ numbered 0 causes

def failure (heading : String) (causes : List String) : Report where
  code := 1
  output := ""
  errors := "Error: " ++ heading ++ String.ofList (causesText causes) ++ "\n"

def faultText : Json.Fault → String
  | .malformed => "malformed JSON"
  | .ended => "JSON ended too early"
  | .unfit why => why.text

/-- What lies behind an error, apart from its own text. -/
def sources : DocumentError → List String
  | .parse (.download _ _ cause) => [cause.text]
  | .parse (.spawnFailed _ cause) => [cause.text]
  | .parse (.tree (.malformed fault)) => [faultText fault]
  | .check .http => ["error sending request"]
  | .check (.response fault) => [faultText fault]
  | _ => []

end AdocProse.CommandLine
