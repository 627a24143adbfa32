import AdocProse.Tree.Leaves
import Mathlib.Tactic.Lemma

/-! Induction over trees, over lists of trees that are still to be visited, and the nodes of a
tree. -/

namespace AdocProse

namespace Node

/-- What holds for a node if it holds for its children holds for every node. -/
@[elab_as_elim]
theorem induct {P : Node → Prop}
    (mk : ∀ kind text start stop children, (∀ c ∈ children, P c) →
      P ⟨kind, text, start, stop, children⟩) (n : Node) : P n :=
  @Node.rec P (fun ns => ∀ c ∈ ns, P c)
    (fun kind text start stop children ih => mk kind text start stop children ih)
    (fun _ hc => absurd hc List.not_mem_nil)
    (fun _ _ hn hns c hc => (List.mem_cons.mp hc).elim (fun h => h ▸ hn) (hns c)) n

mutual

/-- The node and all nodes below it, a node before its children. -/
def nodes : Node → List Node
  | ⟨kind, text, start, stop, children⟩ =>
    ⟨kind, text, start, stop, children⟩ :: nodesOfList children

def nodesOfList : List Node → List Node
  | [] => []
  | n :: ns => nodes n ++ nodesOfList ns

end

lemma self_mem_nodes (n : Node) : n ∈ n.nodes := by
  cases n with
  | mk => simp [nodes]

lemma nodesOfList_eq (ns : List Node) : nodesOfList ns = ns.flatMap nodes := by
  induction ns with
  | nil => rfl
  | cons n ns ih => rw [nodesOfList, ih, List.flatMap_cons]

lemma mem_nodesOfList {m : Node} {ns : List Node} :
    m ∈ nodesOfList ns ↔ ∃ n ∈ ns, m ∈ n.nodes := by
  rw [nodesOfList_eq, List.mem_flatMap]

lemma nodes_of_child {kind : Kind} {text : Option String} {start stop : Nat} {children : List Node}
    {c m : Node} (hc : c ∈ children) (hm : m ∈ c.nodes) :
    m ∈ nodes ⟨kind, text, start, stop, children⟩ := by
  rw [nodes]
  exact List.mem_cons_of_mem _ (mem_nodesOfList.mpr ⟨c, hc, hm⟩)

end Node

end AdocProse
