import AdocProse.Proofs.Tree.Nodes
import AdocProse.Tree.Reader

/-! In a valid tree no span is inverted and every node lies inside the node that it is under. Every tree
that is read from a document is valid. -/

namespace AdocProse.Node

lemma validateList_ok {kind : Kind} {start stop : Nat} {ns : List Node} :
    validateList kind start stop ns = .ok () ↔
      ∀ n ∈ ns, start ≤ n.start ∧ n.stop ≤ stop ∧ n.validate = .ok () := by
  induction ns with
  | nil => simp [validateList]
  | cons n ns ih =>
    rw [validateList, List.forall_mem_cons, ← ih]
    split
    · next h =>
      refine ⟨nofun, ?_⟩
      rintro ⟨⟨hstart, hstop, -⟩, -⟩
      omega
    · next h =>
      have hinside : start ≤ n.start ∧ n.stop ≤ stop := by omega
      cases hn : n.validate with
      | error e => exact ⟨nofun, fun hok => nomatch hok.1.2.2⟩
      | ok => exact ⟨fun hns => ⟨⟨hinside.1, hinside.2, rfl⟩, hns⟩, fun hok => hok.2⟩

lemma validate_ok {n : Node} :
    n.validate = .ok () ↔ n.start ≤ n.stop ∧
      ∀ c ∈ n.children, n.start ≤ c.start ∧ c.stop ≤ n.stop ∧ c.validate = .ok () := by
  cases n with
  | mk kind text start stop children =>
    rw [validate, ← @validateList_ok kind]
    split
    · next h =>
      exact ⟨nofun, fun hok => absurd h (Nat.not_lt.mpr hok.1)⟩
    · next h => exact ⟨fun hok => ⟨Nat.not_lt.mp h, hok⟩, fun hok => hok.2⟩

lemma nodes_inside {n m : Node} (h : n.validate = .ok ()) (hm : m ∈ n.nodes) :
    n.start ≤ m.start ∧ m.start ≤ m.stop ∧ m.stop ≤ n.stop := by
  induction n using Node.induct with
  | mk kind text start stop children ih =>
    obtain ⟨hspan, hchildren⟩ := validate_ok.mp h
    rcases List.mem_cons.mp hm with rfl | hbelow
    · exact ⟨Nat.le_refl _, hspan, Nat.le_refl _⟩
    · obtain ⟨c, hc, hm⟩ := mem_nodesOfList.mp hbelow
      obtain ⟨hstart, hstop, hvalid⟩ := hchildren c hc
      obtain ⟨hfrom, hm, hto⟩ := ih c hc hvalid hm
      exact ⟨Nat.le_trans hstart hfrom, hm, Nat.le_trans hto hstop⟩

lemma validate_of_ofJson {bytes : List UInt8} {n : Node} (h : ofJson bytes = .ok n) :
    n.validate = .ok () := by
  rw [ofJson] at h
  split at h
  · cases h
  · next m _ =>
    cases hm : m.validate with
    | error e =>
      rw [hm] at h
      cases h
    | ok =>
      rw [hm] at h
      cases h
      exact hm

end AdocProse.Node
