import AdocProse.Proofs.Annotation.Segments
import Mathlib.Data.List.Forall2

/-! Asked again and again, the stack of nodes gives the leaves of a tree and then nothing any more.
Annotating the tree adds one segment for each of them, in the same order. -/

namespace AdocProse

namespace Leaves

def advance : List Node → Option Node × List Node
  | [] => (none, [])
  | n :: stack => if n.isLeaf then (some n, stack) else advance (n.children ++ stack)
termination_by stack => Node.countList stack
decreasing_by
  simp only [Node.countList_append, Node.countList, Node.count_eq]
  omega

def yields : Nat → List Node → List (Option Node)
  | 0, _ => []
  | k + 1, stack => (advance stack).1 :: yields k (advance stack).2

lemma advance_nil : advance [] = (none, []) := by
  rw [advance]

lemma advance_leaf {n : Node} (hn : n.isLeaf = true) (stack : List Node) :
    advance (n :: stack) = (some n, stack) := by
  rw [advance, if_pos hn]

lemma advance_container {n : Node} (hn : n.isLeaf = false) (stack : List Node) :
    advance (n :: stack) = advance (n.children ++ stack) := by
  rw [advance, if_neg (by simp [hn])]

lemma next_eq_advance (stack : List Node) :
    next stack = (advance stack).1.map fun n => (n, (advance stack).2) := by
  induction stack using induct with
  | nil => rw [next, advance_nil, Option.map_none]
  | leaf n stack hn ih => rw [next, if_pos hn, advance_leaf hn, Option.map_some]
  | container n stack hn ih => rw [next, if_neg (by simp [hn]), ih, advance_container hn]

lemma yields_nil (k : Nat) : yields k [] = List.replicate k none := by
  induction k with
  | zero => rfl
  | succ k ih => rw [yields, advance_nil, ih, List.replicate_succ]

lemma yields_container {n : Node} (hn : n.isLeaf = false) (k : Nat) (stack : List Node) :
    yields k (n :: stack) = yields k (n.children ++ stack) := by
  cases k with
  | zero => rfl
  | succ k => rw [yields, yields, advance_container hn]

lemma yields_toList (stack : List Node) (k : Nat) :
    yields ((toList stack).length + k) stack =
      (toList stack).map some ++ List.replicate k none := by
  induction stack using induct with
  | nil => simpa using yields_nil k
  | leaf n stack hn ih =>
    rw [toList_leaf hn, List.length_cons, Nat.add_right_comm, yields, advance_leaf hn, ih]
    rfl
  | container n stack hn ih => rw [toList_container hn, yields_container hn, ih]

end Leaves

lemma Kind.isProse_iff (k : Kind) : k.isProse = true ↔ k = .text ∨ k = .whiteSpace := by
  cases k <;> decide

lemma Kind.isText_segment (k : Kind) (s : String) : (k.segment s).isText = k.isProse := by
  cases h : k.isProse <;> simp [segment, h, Segment.isText]

structure Segment.Presents (s : Segment) (l : Node) : Prop where
  content_eq : l.text = some s.content
  isText_iff : s.isText = true ↔ l.kind = .text ∨ l.kind = .whiteSpace

namespace Node

lemma presents_segment {l : Node} (hl : l.isLeaf = true) : l.segment.Presents l where
  content_eq := by rw [segment_content, text_of_isLeaf hl]
  isText_iff := by rw [segment, Kind.isText_segment, Kind.isProse_iff]

lemma presents_leaves {ls : List Node} (h : ∀ l ∈ ls, l.isLeaf = true) :
    List.Forall₂ Segment.Presents (ls.map segment) ls := by
  rw [List.forall₂_map_left_iff, List.forall₂_same]
  exact fun l hl => presents_segment (h l hl)

lemma filterMap_text {ls : List Node} (h : ∀ l ∈ ls, l.isLeaf = true) :
    ls.filterMap text = ls.map content := by
  rw [← List.filterMap_eq_map]
  exact List.filterMap_congr fun l hl => text_of_isLeaf (h l hl)

lemma plainText_annotate (n : Node) :
    n.annotate.plainText = String.join ((n.leaves.filter fun l => l.kind.isProse).map content) := by
  have htext : Segment.isText ∘ segment = fun l => l.kind.isProse :=
    funext fun l => Kind.isText_segment l.kind l.content
  rw [AnnotatedText.plainText, segments_annotate, List.filter_map, htext, List.map_map]
  exact congrArg String.join (List.map_congr_left fun l _ => segment_content l)

/-- The iterator over the leaves of a tree gives finitely many leaves and then none any more. Annotating
the tree adds to any annotated text exactly one segment for each of these leaves, in their order. So
the text is made of the texts of all leaves and the plain text of those that are prose. -/
theorem addTree_follows_leaves (t : Node) (a : AnnotatedText) :
    (∀ stack, Leaves.next stack =
      (Leaves.advance stack).1.map fun n => (n, (Leaves.advance stack).2)) ∧
    (∀ k, Leaves.yields (t.leaves.length + k) [t] =
      t.leaves.map some ++ List.replicate k none) ∧
    (∃ added, (a.addTree t).segments = a.segments ++ added ∧
      List.Forall₂ Segment.Presents added t.leaves) ∧
    t.annotate.text = String.join (t.leaves.filterMap text) ∧
    t.annotate.plainText = String.join
      ((t.leaves.filter fun l => l.kind = .text ∨ l.kind = .whiteSpace).filterMap text) ∧
    t.annotate.size = (Utf8.encode t.annotate.text).length := by
  have hleaf : ∀ l ∈ t.leaves, l.isLeaf = true := fun l hl => (mem_leaves hl).2
  refine ⟨Leaves.next_eq_advance, Leaves.yields_toList [t],
    ⟨_, segments_addTree t a, presents_leaves hleaf⟩, ?_, ?_, ?_⟩
  · rw [text_annotate, filterMap_text hleaf]
  · rw [plainText_annotate, filterMap_text fun l hl => hleaf l (List.mem_filter.mp hl).1]
    simp only [← Kind.isProse_iff, Bool.decide_eq_true]
  · rw [size_annotate, text_annotate, Utf8.length_encode, Utf8.size_join]

end Node

end AdocProse
