import AdocProse.Proofs.Tree.Nodes

/-! The leaves found with a stack are the leaves of its nodes, one node after the other. -/

namespace AdocProse

namespace Leaves

lemma toList_none {stack : List Node} (h : next stack = none) : toList stack = [] := by
  rw [toList]
  split
  · rfl
  · next hfound =>
    rw [h] at hfound
    cases hfound

lemma toList_some {stack rest : List Node} {n : Node} (h : next stack = some (n, rest)) :
    toList stack = n :: toList rest := by
  rw [toList]
  split
  · next hfound =>
    rw [h] at hfound
    cases hfound
  · next hfound =>
    rw [h] at hfound
    cases hfound
    rfl

@[simp] lemma toList_nil : toList [] = [] :=
  toList_none (by rw [next])

lemma toList_leaf {n : Node} (hn : n.isLeaf = true) (stack : List Node) :
    toList (n :: stack) = n :: toList stack :=
  toList_some (by rw [next, if_pos hn])

lemma toList_container {n : Node} (hn : n.isLeaf = false) (stack : List Node) :
    toList (n :: stack) = toList (n.children ++ stack) := by
  have hnext : next (n :: stack) = next (n.children ++ stack) := by rw [next, if_neg (by simp [hn])]
  cases h : next (n.children ++ stack) with
  | none => rw [toList_none (hnext.trans h), toList_none h]
  | some found =>
    obtain ⟨l, rest⟩ := found
    rw [toList_some (hnext.trans h), toList_some h]

/-- What holds for the empty stack, and for a stack if it holds for what stands on it after the
next node, holds for every stack. -/
@[elab_as_elim]
theorem induct {P : List Node → Prop} (nil : P [])
    (leaf : ∀ n stack, n.isLeaf = true → P stack → P (n :: stack))
    (container : ∀ n stack, n.isLeaf = false → P (n.children ++ stack) → P (n :: stack))
    (stack : List Node) : P stack :=
  match stack with
  | [] => nil
  | n :: stack =>
    if hn : n.isLeaf = true then leaf n stack hn (induct nil leaf container stack)
    else container n stack (by simpa using hn) (induct nil leaf container (n.children ++ stack))
termination_by Node.countList stack
decreasing_by
  all_goals
    simp only [Node.countList_append, Node.countList, Node.count_eq]
    omega

lemma toList_append (stack stack' : List Node) :
    toList (stack ++ stack') = toList stack ++ toList stack' := by
  induction stack using induct with
  | nil => rw [toList_nil, List.nil_append, List.nil_append]
  | leaf n stack hn ih => rw [List.cons_append, toList_leaf hn, ih, toList_leaf hn, List.cons_append]
  | container n stack hn ih =>
    rw [List.cons_append, toList_container hn, ← List.append_assoc, ih, toList_container hn]

lemma toList_eq (stack : List Node) : toList stack = stack.flatMap Node.leaves := by
  induction stack with
  | nil => exact toList_nil
  | cons n stack ih =>
    rw [← List.singleton_append, toList_append, ih]
    rfl

end Leaves

namespace Node

lemma leaves_of_leaf {n : Node} (hn : n.isLeaf = true) : n.leaves = [n] := by
  rw [leaves, Leaves.toList_leaf hn, Leaves.toList_nil]

lemma leaves_of_container {n : Node} (hn : n.isLeaf = false) :
    n.leaves = n.children.flatMap leaves := by
  rw [leaves, Leaves.toList_container hn, List.append_nil, Leaves.toList_eq]

lemma mem_leaves {n l : Node} (h : l ∈ n.leaves) : l ∈ n.nodes ∧ l.isLeaf = true := by
  induction n using Node.induct with
  | mk kind text start stop children ih =>
    cases text with
    | some s =>
      rw [leaves_of_leaf rfl, List.mem_singleton] at h
      rw [h]
      exact ⟨self_mem_nodes _, rfl⟩
    | none =>
      rw [leaves_of_container rfl] at h
      obtain ⟨c, hc, hl⟩ := List.mem_flatMap.mp h
      obtain ⟨hnode, hleaf⟩ := ih c hc hl
      exact ⟨nodes_of_child hc hnode, hleaf⟩

end Node

end AdocProse
