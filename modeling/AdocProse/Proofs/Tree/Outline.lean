import AdocProse.Proofs.Number.Decimal
import AdocProse.Proofs.Text.Pieces
import AdocProse.Proofs.Text.Quoted
import AdocProse.Proofs.Tree.Kind
import AdocProse.Proofs.Tree.Nodes
import Mathlib.Data.List.Basic

/-! The outline of a tree has one line for every node, indented by the depth of the node, and no two
trees have the same outline. -/

namespace AdocProse.Node

def indentation (line : List Char) : Nat :=
  (line.takeWhile (· == ' ')).length

def quotation : Option String → List Char
  | none => []
  | some s => ' ' :: Quoted.encode s.toList

lemma line_eq (n : Node) (depth : Nat) :
    n.line depth = List.replicate (2 * depth) ' ' ++ n.line 0 := by
  simp [line]

lemma line_zero (n : Node) :
    n.line 0 = n.kind.name.toList ++ '@' ::
      (Decimal.chars n.start ++ '.' :: '.' :: (Decimal.chars n.stop ++ quotation n.text)) := by
  cases h : n.text <;> simp [line, spanText, Decimal.text, quotation, quoted, h]

lemma indentation_line (n : Node) (depth : Nat) : indentation (n.line depth) = 2 * depth := by
  obtain ⟨c, cs, hname, -⟩ := Kind.name_letters n.kind
  have hc : c ≠ ' ' := (Kind.name_plain (hname ▸ List.mem_cons_self)).2.1
  rw [line_eq, indentation, List.takeWhile_append_of_pos (by simp), line_zero, hname]
  simp [hc]

lemma quotation_inj {text text' : Option String} (h : quotation text = quotation text') :
    text = text' := by
  cases text with
  | none =>
    cases text' with
    | none => rfl
    | some s' => cases h
  | some s =>
    cases text' with
    | none => cases h
    | some s' =>
      obtain ⟨-, hquoted⟩ := List.cons.inj h
      rw [String.toList_inj.mp (Quoted.encode_inj hquoted)]

lemma quotation_head (text : Option String) : ∀ c ∈ (quotation text).head?, Digit.ofChar? c = none := by
  cases text with
  | none => nofun
  | some s =>
    rintro c hc
    cases hc
    rfl

lemma line_zero_inj {n m : Node} (h : n.line 0 = m.line 0) :
    n.kind = m.kind ∧ n.start = m.start ∧ n.stop = m.stop ∧ n.text = m.text := by
  have hat : ∀ k : Kind, '@' ∉ k.name.toList := fun k hk => (Kind.name_plain hk).1 rfl
  have hpoint : ∀ cs : List Char, ∀ c ∈ ('.' :: cs).head?, Digit.ofChar? c = none := by
    rintro cs c hc
    cases hc
    rfl
  rw [line_zero, line_zero] at h
  obtain ⟨hname, hspan⟩ := Pieces.append_separator_inj (hat _) (hat _) h
  obtain ⟨hstart, hrest⟩ := Decimal.chars_append_inj (hpoint _) (hpoint _) hspan
  have hstop := Decimal.chars_append_inj (quotation_head _) (quotation_head _)
    (List.cons.inj (List.cons.inj hrest).2).2
  exact ⟨Kind.name_inj (String.toList_inj.mp hname), hstart, hstop.1, quotation_inj hstop.2⟩

lemma line_inj {n m : Node} {depth : Nat} (h : n.line depth = m.line depth) :
    n.kind = m.kind ∧ n.start = m.start ∧ n.stop = m.stop ∧ n.text = m.text := by
  rw [line_eq n, line_eq m] at h
  exact line_zero_inj (List.append_cancel_left h)

lemma newline_not_mem_line (n : Node) (depth : Nat) : '\n' ∉ n.line depth := by
  have hchars : ∀ k, '\n' ∉ Decimal.chars k := fun k hk =>
    absurd (Decimal.isSome_of_mem_chars hk) (by decide)
  have hname : '\n' ∉ n.kind.name.toList := fun h => (Kind.name_plain h).2.2 rfl
  have htext : '\n' ∉ quotation n.text := by
    cases n.text with
    | none => exact List.not_mem_nil
    | some s => simpa [quotation] using Quoted.newline_not_mem_encode s.toList
  rw [line_eq, line_zero]
  simp [hchars, hname, htext]

mutual

/-- The node and all nodes below it, a node before its children, each with its depth. -/
def levels (depth : Nat) : Node → List (Nat × Node)
  | ⟨kind, text, start, stop, children⟩ =>
    (depth, ⟨kind, text, start, stop, children⟩) :: levelsOfList (depth + 1) children

def levelsOfList (depth : Nat) : List Node → List (Nat × Node)
  | [] => []
  | n :: ns => levels depth n ++ levelsOfList depth ns

end

lemma levelsOfList_eq (depth : Nat) (ns : List Node) :
    levelsOfList depth ns = ns.flatMap (levels depth) := by
  induction ns with
  | nil => rfl
  | cons n ns ih => rw [levelsOfList, ih, List.flatMap_cons]

lemma linesList_eq (depth : Nat) (ns : List Node) :
    linesList depth ns = ns.flatMap (lines depth) := by
  induction ns with
  | nil => rfl
  | cons n ns ih => rw [linesList, ih, List.flatMap_cons]

lemma nodes_levels (n : Node) (depth : Nat) : n.nodes = (n.levels depth).map Prod.snd := by
  induction n using Node.induct generalizing depth with
  | mk kind text start stop children ih =>
    rw [levels, nodes, List.map_cons, levelsOfList_eq, nodesOfList_eq, List.map_flatMap]
    exact congrArg _ (List.flatMap_congr fun c hc => ih c hc (depth + 1))

lemma lines_levels (n : Node) (depth : Nat) :
    n.lines depth = (n.levels depth).map fun p => p.2.line p.1 := by
  induction n using Node.induct generalizing depth with
  | mk kind text start stop children ih =>
    rw [levels, lines, List.map_cons, levelsOfList_eq, linesList_eq, List.map_flatMap]
    exact congrArg _ (List.flatMap_congr fun c hc => ih c hc (depth + 1))

def Above (depth : Nat) (rest : List (List Char)) : Prop :=
  ∀ line ∈ rest.head?, indentation line < 2 * depth

lemma above_nil (depth : Nat) : Above depth [] := by
  simp [Above]

lemma head_linesList (depth : Nat) (n : Node) (ns : List Node) (rest : List (List Char)) :
    (linesList depth (n :: ns) ++ rest).head? = some (n.line depth) := by
  cases n with
  | mk => rfl

lemma above_linesList {depth : Nat} {rest : List (List Char)} (h : Above depth rest)
    (ns : List Node) : Above (depth + 1) (linesList depth ns ++ rest) := by
  intro line hline
  cases ns with
  | nil =>
    have hrest := h line hline
    omega
  | cons n ns =>
    rw [head_linesList, Option.mem_some_iff] at hline
    rw [← hline, indentation_line]
    omega

lemma not_above_linesList {depth : Nat} {n : Node} {ns : List Node} {rest : List (List Char)} :
    ¬ Above depth (linesList depth (n :: ns) ++ rest) := by
  intro h
  have hline := h _ (head_linesList depth n ns rest)
  rw [indentation_line] at hline
  exact Nat.lt_irrefl _ hline

/-- The lines of the node, in front of lines that are not below it, show the node and where it ends. -/
def Recovers (n : Node) : Prop :=
  ∀ {m : Node} {depth : Nat} {rest rest' : List (List Char)}, Above (depth + 1) rest →
    Above (depth + 1) rest' → n.lines depth ++ rest = m.lines depth ++ rest' → n = m ∧ rest = rest'

lemma linesList_append_inj {ns ms : List Node} {depth : Nat} {rest rest' : List (List Char)}
    (hns : ∀ n ∈ ns, Recovers n) (hrest : Above depth rest) (hrest' : Above depth rest')
    (h : linesList depth ns ++ rest = linesList depth ms ++ rest') : ns = ms ∧ rest = rest' := by
  induction ns generalizing ms with
  | nil =>
    cases ms with
    | nil => exact ⟨rfl, h⟩
    | cons m ms =>
      change rest = linesList depth (m :: ms) ++ rest' at h
      rw [h] at hrest
      exact absurd hrest not_above_linesList
  | cons n ns ih =>
    cases ms with
    | nil =>
      change linesList depth (n :: ns) ++ rest = rest' at h
      rw [← h] at hrest'
      exact absurd hrest' not_above_linesList
    | cons m ms =>
      rw [linesList, linesList, List.append_assoc, List.append_assoc] at h
      obtain ⟨rfl, hlines⟩ := hns n List.mem_cons_self (above_linesList hrest ns)
        (above_linesList hrest' ms) h
      obtain ⟨rfl, hrest⟩ := ih (fun n hn => hns n (List.mem_cons_of_mem _ hn)) hlines
      exact ⟨rfl, hrest⟩

lemma lines_append_inj (n : Node) : Recovers n := by
  induction n using Node.induct with
  | mk kind text start stop children ih =>
    -- the line of the node gives its fields; its children end where the indentation goes back
    intro m depth rest rest' hrest hrest' h
    cases m with
    | mk kind' text' start' stop' children' =>
      rw [lines, lines, List.cons_append, List.cons_append] at h
      obtain ⟨hline, hlines⟩ := List.cons.inj h
      obtain ⟨rfl, rfl, rfl, rfl⟩ := line_inj hline
      obtain ⟨rfl, hrest⟩ := linesList_append_inj ih hrest hrest' hlines
      exact ⟨rfl, hrest⟩

lemma split_outline (n : Node) : Pieces.split '\n' n.outline.toList = n.lines 0 ++ [[]] := by
  rw [outline, String.toList_ofList]
  apply Pieces.split_terminated
  intro line hline
  rw [lines_levels] at hline
  obtain ⟨p, -, rfl⟩ := List.mem_map.mp hline
  exact newline_not_mem_line p.2 p.1

lemma outline_inj {n m : Node} (h : n.outline = m.outline) : n = m := by
  have hsplit := congrArg (fun s => Pieces.split '\n' s.toList) h
  simp only [split_outline] at hsplit
  have hlines : n.lines 0 ++ [] = m.lines 0 ++ [] := by
    rw [List.append_cancel_right hsplit]
  exact (lines_append_inj n (above_nil 1) (above_nil 1) hlines).1

/-- Cut at the line breaks, an outline is one line for every node, in the order of the nodes, and the
empty rest behind the last line break. The line of a node begins with exactly two blanks for each
level above the node. Trees with the same outline are the same. -/
theorem outline_faithful (t u : Node) :
    Pieces.split '\n' t.outline.toList = (t.levels 0).map (fun p => p.2.line p.1) ++ [[]] ∧
    (t.levels 0).map Prod.snd = t.nodes ∧
    (t.levels 0).map (fun p => indentation (p.2.line p.1)) = (t.levels 0).map (fun p => 2 * p.1) ∧
    (t.outline = u.outline ↔ t = u) := by
  refine ⟨?_, (nodes_levels t 0).symm, ?_, outline_inj, congrArg outline⟩
  · rw [split_outline, lines_levels]
  · exact List.map_congr_left fun p _ => indentation_line p.2 p.1

end AdocProse.Node
