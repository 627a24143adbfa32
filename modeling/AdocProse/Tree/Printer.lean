import AdocProse.Json.Printer
import AdocProse.Tree.Node

/-!
The JSON document of a syntax tree, without blanks. A node without a text has no member for it, and
a node without children has no list of them.
-/

namespace AdocProse

def Kind.tag (k : Kind) : String :=
  String.ofList (Kind.nameSpace ++ k.name.toList)

namespace Node

open Json

/-- The members of a node whose children are already printed. -/
def jsonMembers (kind : Kind) (text : Option String) (start stop : Nat)
    (children : List (List Char)) : List (String × List Char) :=
  [("type", Printer.string kind.tag)] ++
    (match text with
      | none => []
      | some s => [("text", Printer.string s)]) ++
    [("startOffset", Decimal.chars start), ("endOffset", Decimal.chars stop)] ++
    (match children with
      | [] => []
      | child :: children => [("children", Printer.array (child :: children))])

mutual

def jsonChars : Node → List Char
  | ⟨kind, text, start, stop, children⟩ =>
    Printer.object (jsonMembers kind text start stop (jsonItems children))

def jsonItems : List Node → List (List Char)
  | [] => []
  | n :: ns => jsonChars n :: jsonItems ns

end

def toJson (n : Node) : String :=
  String.ofList n.jsonChars

mutual

/-- The greatest number of brackets that are open at once in the JSON document. -/
def nesting : Node → Nat
  | ⟨_, _, _, _, children⟩ => 1 + nestingOfList children

/-- The same for the list of the children, which is not there without children. -/
def nestingOfList : List Node → Nat
  | [] => 0
  | n :: ns => max (1 + nesting n) (nestingOfList ns)

end

end Node

end AdocProse
