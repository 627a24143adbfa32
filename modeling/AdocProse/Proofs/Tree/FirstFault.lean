import AdocProse.Proofs.Tree.Nodes
import Mathlib.Data.List.Basic

/-! Validation reports the first node in reading order that leaves the span of its parent or whose own span is
inverted, although the one is seen at the parent and the other at the node itself. -/

namespace AdocProse.Node

mutual

/-- The node and all nodes below it, each with its parent, a node before its children. -/
def placesUnder (parent : Option Node) : Node → List (Option Node × Node)
  | ⟨kind, text, start, stop, children⟩ =>
    (parent, ⟨kind, text, start, stop, children⟩) ::
      placesOfList ⟨kind, text, start, stop, children⟩ children

def placesOfList (parent : Node) : List Node → List (Option Node × Node)
  | [] => []
  | n :: ns => placesUnder (some parent) n ++ placesOfList parent ns

end

def places (t : Node) : List (Option Node × Node) :=
  placesUnder none t

def Escapes (n a : Node) : Prop :=
  n.start < a.start ∨ a.stop < n.stop

instance (n a : Node) : Decidable (Escapes n a) :=
  inferInstanceAs (Decidable (_ ∨ _))

/-- What is wrong with a node under a parent. To leave the parent counts first. -/
inductive Wrong : Option Node → Node → String → Prop
  | outside {a n} (h : Escapes n a) : Wrong (some a) n
      ("not contained in parent " ++ a.kind.name ++ "@" ++ Decimal.text a.start ++ ".." ++ Decimal.text a.stop)
  | inverted {parent n} (hinside : ∀ a, parent = some a → ¬Escapes n a) (h : n.stop < n.start) :
      Wrong parent n "start offset is past end offset"

def Faulty (parent : Option Node) (n : Node) : Prop :=
  (∃ a, parent = some a ∧ Escapes n a) ∨ n.stop < n.start

def ownFault (n : Node) : Option InvalidSpan :=
  if n.stop < n.start then some (n.invalid .inverted) else none

def faultAt : Option Node × Node → Option InvalidSpan
  | (none, n) => n.ownFault
  | (some a, n) => if Escapes n a then some (n.invalid (.outside a.kind a.start a.stop)) else n.ownFault

def verdict : Option InvalidSpan → Except InvalidSpan Unit
  | none => .ok ()
  | some e => .error e

lemma verdict_or (o o' : Option InvalidSpan) : verdict (o.or o') = (verdict o >>= fun _ => verdict o') := by
  cases o <;> rfl

lemma append_spanText (s : String) (kind : Kind) (start stop : Nat) : s ++ spanText kind start stop =
    s ++ kind.name ++ "@" ++ Decimal.text start ++ ".." ++ Decimal.text stop := by
  rw [spanText, ← String.append_assoc, ← String.append_assoc, ← String.append_assoc, ← String.append_assoc]

lemma outside_text (a : Node) : (SpanFault.outside a.kind a.start a.stop).text =
    "not contained in parent " ++ a.kind.name ++ "@" ++ Decimal.text a.start ++ ".." ++ Decimal.text a.stop :=
  append_spanText _ _ _ _

lemma ownFault_faults {parent : Option Node} {n : Node} (hinside : ∀ a, parent = some a → ¬Escapes n a) :
    (n.ownFault = none ↔ ¬Faulty parent n) ∧ ∀ e, n.ownFault = some e →
      ∃ f, e = n.invalid f ∧ Wrong parent n f.text := by
  have hfaulty : Faulty parent n ↔ n.stop < n.start := by
    rw [Faulty, or_iff_right]
    rintro ⟨a, ha, hescapes⟩
    exact hinside a ha hescapes
  rw [ownFault, hfaulty]
  split
  · next h =>
    refine ⟨by simp [h], ?_⟩
    rintro e ⟨⟩
    exact ⟨.inverted, rfl, .inverted hinside h⟩
  · next h =>
    refine ⟨by simp [h], ?_⟩
    intro e he
    cases he

lemma faultAt_faults (parent : Option Node) (n : Node) :
    (faultAt (parent, n) = none ↔ ¬Faulty parent n) ∧ ∀ e, faultAt (parent, n) = some e →
      ∃ f, e = n.invalid f ∧ Wrong parent n f.text := by
  cases parent with
  | none => exact ownFault_faults nofun
  | some a =>
    rw [faultAt]
    split
    · next h =>
      have hfaulty : Faulty (some a) n := .inl ⟨a, rfl, h⟩
      refine ⟨by simp [hfaulty], ?_⟩
      rintro e ⟨⟩
      refine ⟨_, rfl, ?_⟩
      rw [outside_text]
      exact .outside h
    · next h =>
      apply ownFault_faults
      rintro _ ⟨⟩
      exact h

lemma placesUnder_eq (parent : Option Node) (n : Node) :
    placesUnder parent n = (parent, n) :: placesOfList n n.children := by
  cases n with
  | mk => rw [placesUnder]

lemma places_nodes (parent : Option Node) (t : Node) : (placesUnder parent t).map (·.2) = t.nodes := by
  induction t using Node.induct generalizing parent with
  | mk kind text start stop children ih =>
    have hbelow (a : Node) : (placesOfList a children).map (·.2) = nodesOfList children := by
      induction children with
      | nil => rfl
      | cons c cs ihs =>
        rw [placesOfList, nodesOfList, List.map_append, ih c List.mem_cons_self,
          ihs fun c hc => ih c (List.mem_cons_of_mem _ hc)]
    rw [placesUnder, nodes, List.map_cons, hbelow]

lemma parents_of_places {t : Node} {p : Option Node × Node} (h : p ∈ placesOfList t t.children) :
    ∃ a ∈ t.nodes, p.1 = some a ∧ p.2 ∈ a.children := by
  induction t using Node.induct with
  | mk kind text start stop children ih =>
    have hlist (cs : List Node) (hcs : cs ⊆ children)
        (h : p ∈ placesOfList ⟨kind, text, start, stop, children⟩ cs) :
        ∃ a ∈ nodes ⟨kind, text, start, stop, children⟩, p.1 = some a ∧ p.2 ∈ a.children := by
      induction cs with
      | nil => cases h
      | cons c cs ihs =>
        rw [List.cons_subset] at hcs
        rw [placesOfList, placesUnder_eq, List.mem_append, List.mem_cons] at h
        rcases h with (rfl | h) | h
        · exact ⟨_, self_mem_nodes _, rfl, hcs.1⟩
        · obtain ⟨a, ha, hparent, hchild⟩ := ih c hcs.1 h
          exact ⟨a, nodes_of_child hcs.1 ha, hparent, hchild⟩
        · exact ihs hcs.2 h
    exact hlist children (List.Subset.refl _) h

lemma validate_eq (n : Node) :
    n.validate = (verdict n.ownFault >>= fun _ => validateList n.kind n.start n.stop n.children) := by
  cases n with
  | mk kind text start stop children =>
    rw [validate, ownFault]
    split <;> rfl

lemma validateList_cons (a n : Node) (ns : List Node) : validateList a.kind a.start a.stop (n :: ns) =
    (verdict (faultAt (some a, n)) >>= fun _ => validateList n.kind n.start n.stop n.children) >>= fun _ =>
      validateList a.kind a.start a.stop ns := by
  rw [validateList, faultAt, validate_eq]
  by_cases h : n.start < a.start ∨ a.stop < n.stop
  · rw [if_pos h, if_pos (show Escapes n a from h)]
    rfl
  · rw [if_neg h, if_neg (show ¬Escapes n a from h)]

lemma validateList_places (t : Node) : validateList t.kind t.start t.stop t.children =
    verdict ((placesOfList t t.children).findSome? faultAt) := by
  induction t using Node.induct with
  | mk kind text start stop children ih =>
    have hlist (a : Node) : validateList a.kind a.start a.stop children =
        verdict ((placesOfList a children).findSome? faultAt) := by
      induction children with
      | nil => rfl
      | cons c cs ihs =>
        rw [validateList_cons, ih c List.mem_cons_self, ihs fun c hc => ih c (List.mem_cons_of_mem _ hc),
          ← verdict_or, ← verdict_or, placesOfList, placesUnder_eq, List.findSome?_append, List.findSome?_cons]
        cases faultAt (some a, c) <;> rfl
    exact hlist ⟨kind, text, start, stop, children⟩

lemma validate_places (t : Node) : t.validate = verdict (t.places.findSome? faultAt) := by
  rw [validate_eq, validateList_places, ← verdict_or, places, placesUnder_eq, List.findSome?_cons, faultAt]
  cases t.ownFault <;> rfl

lemma verdict_ok {o : Option InvalidSpan} : verdict o = .ok () ↔ o = none := by
  cases o <;> simp [verdict]

lemma verdict_error {o : Option InvalidSpan} {e : InvalidSpan} : verdict o = .error e ↔ o = some e := by
  cases o <;> simp [verdict]

/-- A tree is valid exactly if no node is faulty, and else it is refused for the first faulty node in reading
order. The places are all nodes in this order, and each node but the root is there with its parent. -/
theorem first_fault_reported (t : Node) :
    (t.validate = .ok () ↔ ∀ p ∈ t.places, ¬Faulty p.1 p.2) ∧
    (∀ e, t.validate = .error e → ∃ before parent n after, t.places = before ++ (parent, n) :: after ∧
      (∀ p ∈ before, ¬Faulty p.1 p.2) ∧ e.kind = n.kind ∧ e.start = n.start ∧ e.stop = n.stop ∧
      Wrong parent n e.fault.text) ∧
    t.places.map (·.2) = t.nodes ∧
    ∃ below, t.places = (none, t) :: below ∧ ∀ p ∈ below, ∃ a ∈ t.nodes, p.1 = some a ∧ p.2 ∈ a.children := by
  refine ⟨?_, ?_, places_nodes none t, _, placesUnder_eq none t, fun p => parents_of_places⟩
  · rw [validate_places, verdict_ok, List.findSome?_eq_none_iff]
    exact forall₂_congr fun p _ => (faultAt_faults p.1 p.2).1
  · intro e h
    rw [validate_places, verdict_error, List.findSome?_eq_some_iff] at h
    obtain ⟨before, ⟨parent, n⟩, after, hplaces, hn, hbefore⟩ := h
    obtain ⟨f, rfl, hwrong⟩ := (faultAt_faults parent n).2 e hn
    have hnone : ∀ p ∈ before, ¬Faulty p.1 p.2 := fun p hp => (faultAt_faults p.1 p.2).1.mp (hbefore p hp)
    exact ⟨before, parent, n, after, hplaces, hnone, rfl, rfl, rfl, hwrong⟩

-- the text is inverted if it ends at 2, and the reference is inverted and escapes
def crossedTree (stop : Nat) : Node :=
  ⟨.file, none, 0, 9, [⟨.block, none, 1, 5, [⟨.text, some "x", 4, stop, []⟩]⟩, ⟨.ref, none, 12, 10, []⟩]⟩

theorem first_fault_reported_crossed :
    ((crossedTree 2).validate = .error ⟨.text, 4, 2, .inverted⟩ ∧
      ∃ before parent n after, (crossedTree 2).places = before ++ (parent, n) :: after ∧
        (∀ p ∈ before, ¬Faulty p.1 p.2) ∧ n.kind = .text ∧
        Wrong parent n "start offset is past end offset") ∧
    ((crossedTree 4).validate = .error ⟨.ref, 12, 10, .outside .file 0 9⟩ ∧
      ∃ before parent n after, (crossedTree 4).places = before ++ (parent, n) :: after ∧
        (∀ p ∈ before, ¬Faulty p.1 p.2) ∧ n.kind = .ref ∧
        Wrong parent n "not contained in parent FILE@0..9") := by
  have htext : (crossedTree 2).validate = .error ⟨.text, 4, 2, .inverted⟩ := rfl
  have href : (crossedTree 4).validate = .error ⟨.ref, 12, 10, .outside .file 0 9⟩ := rfl
  have hreason : (SpanFault.outside .file 0 9).text = "not contained in parent FILE@0..9" := by decide +kernel
  obtain ⟨-, hfirst, -⟩ := first_fault_reported (crossedTree 2)
  obtain ⟨-, hfirst', -⟩ := first_fault_reported (crossedTree 4)
  obtain ⟨before, parent, n, after, hplaces, hbefore, hkind, -, -, hwrong⟩ := hfirst _ htext
  obtain ⟨before', parent', n', after', hplaces', hbefore', hkind', -, -, hwrong'⟩ := hfirst' _ href
  rw [hreason] at hwrong'
  exact ⟨⟨htext, before, parent, n, after, hplaces, hbefore, hkind.symm, hwrong⟩,
    href, before', parent', n', after', hplaces', hbefore', hkind'.symm, hwrong'⟩

end AdocProse.Node
