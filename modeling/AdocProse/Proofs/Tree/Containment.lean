import AdocProse.Proofs.Tree.Leaves
import AdocProse.Proofs.Tree.RoundTrip
import AdocProse.Proofs.Tree.Spans
import Mathlib.Logic.Relation

/-! A tree is valid exactly if none of its spans is inverted and every span contains the spans of all
nodes below, although a node is only compared with its children. -/

namespace AdocProse.Node

def IsParent (a c : Node) : Prop :=
  c ∈ a.children

def IsBelow (d a : Node) : Prop :=
  Relation.TransGen IsParent a d

lemma mem_nodes_iff {n m : Node} : m ∈ n.nodes ↔ Relation.ReflTransGen IsParent n m := by
  induction n using Node.induct with
  | mk kind text start stop children ih =>
    rw [nodes, List.mem_cons, mem_nodesOfList, Relation.ReflTransGen.cases_head_iff, eq_comm]
    exact or_congr_right (exists_congr fun c => and_congr_right fun hc => ih c hc)

lemma isBelow_iff {a d : Node} : IsBelow d a ↔ ∃ c ∈ a.children, d ∈ c.nodes := by
  simp only [mem_nodes_iff]
  exact Relation.TransGen.head'_iff

lemma valid_of_mem_nodes {n m : Node} (h : n.validate = .ok ()) (hm : m ∈ n.nodes) :
    m.validate = .ok () := by
  induction n using Node.induct with
  | mk kind text start stop children ih =>
    rcases List.mem_cons.mp hm with rfl | hbelow
    · exact h
    · obtain ⟨c, hc, hm⟩ := mem_nodesOfList.mp hbelow
      exact ih c hc ((validate_ok.mp h).2 c hc).2.2 hm

def Nested (t : Node) : Prop :=
  ∀ a ∈ t.nodes, a.start ≤ a.stop ∧ ∀ d, IsBelow d a → a.start ≤ d.start ∧ d.stop ≤ a.stop

lemma nested_of_valid {t : Node} (h : t.validate = .ok ()) : t.Nested := by
  intro a ha
  have hvalid := valid_of_mem_nodes h ha
  refine ⟨(validate_ok.mp hvalid).1, fun d hd => ?_⟩
  obtain ⟨c, hc, hd⟩ := isBelow_iff.mp hd
  obtain ⟨hstart, hstop, hchild⟩ := (validate_ok.mp hvalid).2 c hc
  obtain ⟨hfrom, -, hto⟩ := nodes_inside hchild hd
  exact ⟨Nat.le_trans hstart hfrom, Nat.le_trans hto hstop⟩

lemma nested_of_child {t c : Node} (h : t.Nested) (hc : c ∈ t.children) : c.Nested := by
  intro a ha
  cases t with
  | mk kind text start stop children => exact h a (nodes_of_child hc ha)

lemma valid_of_nested {t : Node} (h : t.Nested) : t.validate = .ok () := by
  induction t using Node.induct with
  | mk kind text start stop children ih =>
    obtain ⟨hspan, hbelow⟩ := h _ (self_mem_nodes _)
    refine validate_ok.mpr ⟨hspan, fun c hc => ?_⟩
    obtain ⟨hstart, hstop⟩ := hbelow c (.single hc)
    exact ⟨hstart, hstop, ih c hc (nested_of_child h hc)⟩

/-- Validation accepts exactly the nested trees. In a tree that was read from a document, every leaf
lies inside the root's span, and no length is cut off at zero. -/
theorem validate_ok_iff_nested (t : Node) :
    (t.validate = .ok () ↔ t.Nested) ∧
    ∀ bytes, ofJson bytes = .ok t →
      (∀ l ∈ t.leaves, t.start ≤ l.start ∧ l.start ≤ l.stop ∧ l.stop ≤ t.stop) ∧
      ∀ n ∈ t.nodes, n.start + n.length = n.stop := by
  refine ⟨⟨nested_of_valid, valid_of_nested⟩, fun bytes hread => ?_⟩
  have hvalid := validate_of_ofJson hread
  refine ⟨fun l hl => nodes_inside hvalid (mem_leaves hl).1, fun n hn => ?_⟩
  exact Nat.add_sub_of_le (nested_of_valid hvalid n hn).1

-- the last node is below a leaf
def macroTree : Node :=
  ⟨.file, none, 0, 9, [⟨.block, none, 1, 9,
    [⟨.inlineMacro, some "kbd:[x]", 2, 9, [⟨.text, some "x", 7, 8, []⟩]⟩]⟩]⟩

theorem validate_ok_iff_nested_macroTree :
    ofJson (Utf8.encode macroTree.toJson) = .ok macroTree ∧ macroTree.Nested ∧
    (⟨.inlineMacro, some "kbd:[x]", 2, 9, [⟨.text, some "x", 7, 8, []⟩]⟩ ∈ macroTree.leaves ∧
      macroTree.start ≤ 2 ∧ 2 ≤ 9 ∧ 9 ≤ macroTree.stop) ∧
    ⟨.text, some "x", 7, 8, []⟩ ∈ macroTree.nodes ∧
      7 + length ⟨.text, some "x", 7, 8, []⟩ = 8 := by
  have hvalid : macroTree.validate = .ok () := rfl
  have hread : ofJson (Utf8.encode macroTree.toJson) = .ok macroTree :=
    ofJson_valid (by decide) (by decide) hvalid
  have hleaf : ⟨.inlineMacro, some "kbd:[x]", 2, 9, [⟨.text, some "x", 7, 8, []⟩]⟩ ∈
      macroTree.leaves := by decide +kernel
  have hnode : ⟨.text, some "x", 7, 8, []⟩ ∈ macroTree.nodes := by decide
  obtain ⟨hnested, haccepted⟩ := validate_ok_iff_nested macroTree
  obtain ⟨hleaves, hlengths⟩ := haccepted _ hread
  exact ⟨hread, hnested.mp hvalid, ⟨hleaf, hleaves _ hleaf⟩, hnode, hlengths _ hnode⟩

end AdocProse.Node
