import AdocProse.Tree.Node

/-!
The leaves of a tree in document order, found with a stack of nodes that are still to be visited.
What is below a leaf is not visited.
-/

namespace AdocProse.Leaves

/-- The first leaf at or below the nodes, and the nodes that are left. -/
def next : List Node → Option (Node × List Node)
  | [] => none
  | n :: stack => if n.isLeaf then some (n, stack) else next (n.children ++ stack)
termination_by stack => Node.countList stack
decreasing_by
  simp only [Node.countList_append, Node.countList, Node.count_eq]
  omega

theorem countList_next {stack : List Node} {n : Node} {rest : List Node}
    (h : next stack = some (n, rest)) : Node.countList rest < Node.countList stack := by
  fun_induction next stack with
  | case1 => simp at h
  | case2 n stack hn =>
    simp only [Option.some.injEq, Prod.mk.injEq] at h
    obtain ⟨-, rfl⟩ := h
    simp only [Node.countList, Node.count_eq]
    omega
  | case3 n stack hn ih =>
    have hrest := ih h
    simp only [Node.countList_append] at hrest
    simp only [Node.countList, Node.count_eq]
    omega

def toList (stack : List Node) : List Node :=
  match _h : next stack with
  | none => []
  | some (n, rest) => n :: toList rest
termination_by Node.countList stack
decreasing_by exact countList_next _h

end AdocProse.Leaves

namespace AdocProse.Node

def leaves (n : Node) : List Node :=
  Leaves.toList [n]

end AdocProse.Node
