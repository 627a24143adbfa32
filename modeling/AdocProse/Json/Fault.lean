import AdocProse.Number.Shortest
import AdocProse.Text.Quoted

/-!
What can be wrong with a JSON document: it is malformed, it ends too early, or a well-formed value
does not fit the place where it stands.
-/

namespace AdocProse.Json

inductive Found where
  | null
  | boolean (b : Bool)
  | natural (n : Nat)
  | negative (n : Nat)
  | float (x : Binary64)
  | string (s : String)
  | sequence
  | map
  deriving DecidableEq

def Found.text : Found → String
  | .null => "null"
  | .boolean b => "boolean `" ++ (if b then "true" else "false") ++ "`"
  | .natural n => "integer `" ++ Decimal.text n ++ "`"
  | .negative n => "integer `-" ++ Decimal.text n ++ "`"
  | .float x => "floating point `" ++ x.general ++ "`"
  | .string s => "string " ++ quoted s
  | .sequence => "sequence"
  | .map => "map"

inductive Misfit where
  | missing (field : String)
  | repeated (field : String)
  /-- A record written as an array of its fields has too few of them. -/
  | short (items : Nat) (record : String) (fields : Nat)
  | kind (found : Found) (expected : String)
  | range (found : Found) (expected : String)
  | refused (why : String)
  deriving DecidableEq

def Misfit.text : Misfit → String
  | .missing field => "missing field `" ++ field ++ "`"
  | .repeated field => "duplicate field `" ++ field ++ "`"
  | .short items record fields =>
    "invalid length " ++ Decimal.text items ++ ", expected struct " ++ record ++ " with " ++
      Decimal.text fields ++ (if fields = 1 then " element" else " elements")
  | .kind found expected => "invalid type: " ++ found.text ++ ", expected " ++ expected
  | .range found expected => "invalid value: " ++ found.text ++ ", expected " ++ expected
  | .refused why => why

inductive Fault where
  | malformed
  | ended
  | unfit (why : Misfit)
  deriving DecidableEq

/-- The fault where something is missing: ended if nothing follows, malformed if something else
does. -/
def Fault.atRest {α : Type} : List α → Fault
  | [] => .ended
  | _ :: _ => .malformed

end AdocProse.Json
