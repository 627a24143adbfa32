import AdocProse.Tree.Node
import AdocProse.Tree.Offset

/-!
Reading a syntax tree from the JSON document of the parser. A node is a record; its text and its
children may be null or left out. A document that is read to its end gives a tree, and then the
spans of the tree are validated.
-/

namespace AdocProse

inductive TreeError where
  | malformed (fault : Json.Fault)
  | invalidSpan (e : InvalidSpan)
  deriving DecidableEq

def TreeError.text : TreeError → String
  | .malformed _ => "malformed AST"
  | .invalidSpan e => e.text

namespace Node

open Json

/-- The value of a member, with the nodes that it lists. -/
structure Part where
  value : Value
  nodes : Reading (List Node)

/-- A text that is given as null is given, and absent. -/
structure Slots where
  kind : Option Kind := none
  text : Option (Option String) := none
  start : Option Nat := none
  stop : Option Nat := none
  children : Option (List Node) := none

def readKind (v : Value) : Reading Kind := do
  let tag ← Reading.string v
  match Kind.ofTag tag with
  | .ok k => pure k
  | .error u => Reading.fail (.unfit (.refused u.text))

def readText : Value → Reading (Option String)
  | .null => pure none
  | v => some <$> Reading.string v

def record : Record Part Slots Node where
  name := "Node"
  fields := [
    ⟨"type", false, fun s => s.kind.isSome,
      fun p s => do return { s with kind := some (← readKind p.value) }⟩,
    ⟨"text", true, fun s => s.text.isSome,
      fun p s => do return { s with text := some (← readText p.value) }⟩,
    ⟨"startOffset", false, fun s => s.start.isSome,
      fun p s => do return { s with start := some (← Offset.ofValue p.value) }⟩,
    ⟨"endOffset", false, fun s => s.stop.isSome,
      fun p s => do return { s with stop := some (← Offset.ofValue p.value) }⟩,
    ⟨"children", true, fun s => s.children.isSome,
      fun p s => do return { s with children := some (← p.nodes) }⟩]
  empty := {}
  skip := fun p => p.value.skipFault
  finish := fun s => do
    let kind ← Record.required "type" s.kind
    let start ← Record.required "startOffset" s.start
    let stop ← Record.required "endOffset" s.stop
    return ⟨kind, s.text.join, start, stop, s.children.getD []⟩

mutual

def ofValue : Value → Reading Node
  | .object ms ending => Reading.inside (record.ofMembers (memberParts ms) ending)
  | .array vs ending => Reading.inside (record.ofItems (itemParts vs) ending)
  | v => Reading.mismatch v "struct Node"

/-- Null stands for no nodes. -/
def listOfValue : Value → Reading (List Node)
  | .null => pure []
  | .array vs ending => Reading.inside (Reading.sequence (readings vs) ending)
  | v => Reading.mismatch v "a sequence"

def readings : List Value → List (Reading Node)
  | [] => []
  | v :: vs => ofValue v :: readings vs

def itemParts : List Value → List Part
  | [] => []
  | v :: vs => ⟨v, listOfValue v⟩ :: itemParts vs

def memberParts : List (StringLit × Value) → List (StringLit × Part)
  | [] => []
  | (key, v) :: ms => (key, ⟨v, listOfValue v⟩) :: memberParts ms

end

def ofJson (bytes : List UInt8) : Except TreeError Node :=
  match (Document.ofBytes bytes).read ofValue with
  | .error f => .error (.malformed f)
  | .ok n =>
    match n.validate with
    | .error e => .error (.invalidSpan e)
    | .ok () => .ok n

end Node

end AdocProse
