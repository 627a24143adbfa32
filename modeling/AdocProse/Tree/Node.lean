import AdocProse.Number.Decimal
import AdocProse.Text.Quoted
import AdocProse.Text.Utf8
import AdocProse.Tree.Kind

/-!
Syntax trees. A node has a kind, a span of byte positions in the document, and either a text, which
makes it a leaf, or children; nothing rules out both. `Node.validate` finds the first span, in
reading order, that is inverted or leaves the span around it.
-/

namespace AdocProse

structure Node where
  kind : Kind
  text : Option String
  start : Nat
  stop : Nat
  children : List Node

namespace Node

/-- A leaf whose span has the size of its text. -/
def leaf (kind : Kind) (text : String) (start : Nat) : Node :=
  ⟨kind, some text, start, start + Utf8.size text, []⟩

/-- A node that spans its children from the first to the last. -/
def container (kind : Kind) (children : List Node) : Node :=
  let start := (children.head?.map Node.start).getD 0
  ⟨kind, none, start, (children.getLast?.map Node.stop).getD start, children⟩

def isLeaf (n : Node) : Bool :=
  n.text.isSome

def length (n : Node) : Nat :=
  n.stop - n.start

def isEmpty (n : Node) : Bool :=
  n.length == 0

mutual

def decEq : (a b : Node) → Decidable (a = b)
  | ⟨kind, text, start, stop, children⟩, ⟨kind', text', start', stop', children'⟩ =>
    if h : kind = kind' ∧ text = text' ∧ start = start' ∧ stop = stop' then
      match decEqList children children' with
      | .isTrue hc => .isTrue (by simp [h, hc])
      | .isFalse hc => .isFalse (by simp [hc])
    else .isFalse (by
      intro e
      injection e with h₁ h₂ h₃ h₄
      exact h ⟨h₁, h₂, h₃, h₄⟩)

def decEqList : (as bs : List Node) → Decidable (as = bs)
  | [], [] => .isTrue rfl
  | [], _ :: _ => .isFalse (by simp)
  | _ :: _, [] => .isFalse (by simp)
  | a :: as, b :: bs =>
    match decEq a b, decEqList as bs with
    | .isTrue h, .isTrue hs => .isTrue (by rw [h, hs])
    | .isFalse h, _ => .isFalse (by simp [h])
    | _, .isFalse hs => .isFalse (by simp [hs])

end

instance : DecidableEq Node :=
  decEq

mutual

def count : Node → Nat
  | ⟨_, _, _, _, children⟩ => 1 + countList children

def countList : List Node → Nat
  | [] => 0
  | n :: ns => count n + countList ns

end

theorem countList_append (as bs : List Node) :
    countList (as ++ bs) = countList as + countList bs := by
  induction as with
  | nil => simp [countList]
  | cons a as ih => simp [countList, ih, Nat.add_assoc]

theorem count_eq (n : Node) : n.count = 1 + countList n.children := by
  cases n with
  | mk => simp [count]

end Node

inductive SpanFault where
  | inverted
  /-- The node is not contained in its parent, which has the given kind and span. -/
  | outside (parent : Kind) (start stop : Nat)
  deriving DecidableEq

structure InvalidSpan where
  kind : Kind
  start : Nat
  stop : Nat
  fault : SpanFault
  deriving DecidableEq

/-- A kind and a span as messages and outlines show them. -/
def spanText (kind : Kind) (start stop : Nat) : String :=
  kind.name ++ "@" ++ Decimal.text start ++ ".." ++ Decimal.text stop

def SpanFault.text : SpanFault → String
  | .inverted => "start offset is past end offset"
  | .outside parent start stop => "not contained in parent " ++ spanText parent start stop

def InvalidSpan.text (e : InvalidSpan) : String :=
  "invalid span for " ++ spanText e.kind e.start e.stop ++ ": " ++ e.fault.text

namespace Node

def invalid (n : Node) (fault : SpanFault) : InvalidSpan :=
  ⟨n.kind, n.start, n.stop, fault⟩

mutual

def validate : Node → Except InvalidSpan Unit
  | ⟨kind, _, start, stop, children⟩ =>
    if stop < start then .error ⟨kind, start, stop, .inverted⟩
    else validateList kind start stop children

/-- Validates nodes inside a parent with the given kind and span. -/
def validateList (kind : Kind) (start stop : Nat) : List Node → Except InvalidSpan Unit
  | [] => .ok ()
  | n :: ns =>
    if n.start < start ∨ stop < n.stop then .error (n.invalid (.outside kind start stop))
    else do
      validate n
      validateList kind start stop ns

end

def line (n : Node) (depth : Nat) : List Char :=
  let text := match n.text with
    | none => []
    | some s => ' ' :: (quoted s).toList
  List.replicate (2 * depth) ' ' ++ (spanText n.kind n.start n.stop).toList ++ text

mutual

/-- One line for every node, a node before its children, indented by two blanks a level. -/
def lines (depth : Nat) : Node → List (List Char)
  | ⟨kind, text, start, stop, children⟩ =>
    line ⟨kind, text, start, stop, children⟩ depth :: linesList (depth + 1) children

def linesList (depth : Nat) : List Node → List (List Char)
  | [] => []
  | n :: ns => lines depth n ++ linesList depth ns

end

def outline (n : Node) : String :=
  String.ofList ((n.lines 0).flatMap (· ++ ['\n']))

end Node

end AdocProse
