import AdocProse.Proofs.Annotation.Positions

/-! A tree that nests leaves laid back to back is valid, however it nests them, and its annotated
text is the part of the source that it spans. -/

namespace AdocProse.Node

/-- Leaves with the given kinds and texts, each starting where the one before it stops. -/
def layLeaves (start : Nat) : List (Kind × String) → List Node
  | [] => []
  | (kind, text) :: pieces => leaf kind text start :: layLeaves (leaf kind text start).stop pieces

/-- The trees that hold the given leaves in order, grouped by containers of which none is empty. -/
inductive Nests : List Node → Node → Prop
  | leaf (kind : Kind) (text : String) (start : Nat) :
      Nests [Node.leaf kind text start] (Node.leaf kind text start)
  | container (kind : Kind) (groups : List (List Node × Node)) (hne : groups ≠ [])
      (h : ∀ g ∈ groups, Nests g.1 g.2) :
      Nests (groups.flatMap Prod.fst) (Node.container kind (groups.map Prod.snd))

/-- Valid nodes, each starting where the one before it stops. -/
def Adjoin : List Node → Nat → Nat → Prop
  | [], start, stop => start = stop
  | n :: ns, start, stop => n.start = start ∧ n.validate = .ok () ∧ Adjoin ns n.stop stop

lemma start_le_of_adjoin {ns : List Node} {start stop : Nat} (h : Adjoin ns start stop) :
    start ≤ stop := by
  induction ns generalizing start with
  | nil => exact Nat.le_of_eq h
  | cons n ns ih =>
    obtain ⟨rfl, hn, hns⟩ := h
    exact Nat.le_trans (validate_ok.mp hn).1 (ih hns)

lemma inside_of_adjoin {ns : List Node} {start stop : Nat} (h : Adjoin ns start stop) :
    ∀ n ∈ ns, start ≤ n.start ∧ n.stop ≤ stop ∧ n.validate = .ok () := by
  induction ns generalizing start with
  | nil => simp
  | cons n ns ih =>
    obtain ⟨rfl, hn, hns⟩ := h
    have hspan := (validate_ok.mp hn).1
    intro m hm
    rcases List.mem_cons.mp hm with rfl | hm
    · exact ⟨Nat.le_refl _, start_le_of_adjoin hns, hn⟩
    · obtain ⟨hstart, hstop, hvalid⟩ := ih hns m hm
      exact ⟨Nat.le_trans hspan hstart, hstop, hvalid⟩

lemma ends_of_adjoin {ns : List Node} {start stop : Nat} (hne : ns ≠ []) (h : Adjoin ns start stop) :
    ns.head?.map Node.start = some start ∧ ns.getLast?.map Node.stop = some stop := by
  induction ns generalizing start with
  | nil => exact absurd rfl hne
  | cons n ns ih =>
    obtain ⟨hstart, -, hns⟩ := h
    refine ⟨congrArg some hstart, ?_⟩
    cases ns with
    | nil => exact congrArg some hns
    | cons m ns =>
      rw [List.getLast?_cons_cons]
      exact (ih (by simp) hns).2

/-- The node is valid, holds the leaves and spans them. -/
structure Covers (n : Node) (ls : List Node) (start stop : Nat) : Prop where
  leaves_eq : n.leaves = ls
  start_eq : n.start = start
  stop_eq : n.stop = stop
  valid : n.validate = .ok ()

lemma leaf_covers {kind : Kind} {text : String} {start first last : Nat}
    (h : EndToEnd [leaf kind text start] first last) :
    Covers (leaf kind text start) [leaf kind text start] first last := by
  obtain ⟨rfl, hlast⟩ := h
  refine ⟨leaves_of_leaf rfl, rfl, hlast, validate_ok.mpr ⟨Nat.le_add_right _ _, ?_⟩⟩
  simp [leaf]

lemma container_covers (kind : Kind) {ns ls : List Node} {start stop : Nat} (hne : ns ≠ [])
    (hadjoin : Adjoin ns start stop) (hleaves : ns.flatMap leaves = ls) :
    Covers (container kind ns) ls start stop := by
  obtain ⟨hfirst, hlast⟩ := ends_of_adjoin hne hadjoin
  have hstart : (container kind ns).start = start := by simp [container, hfirst]
  have hstop : (container kind ns).stop = stop := by simp [container, hlast]
  refine ⟨by rw [← hleaves, leaves_of_container rfl]; rfl, hstart, hstop, validate_ok.mpr ?_⟩
  rw [hstart, hstop]
  exact ⟨start_le_of_adjoin hadjoin, inside_of_adjoin hadjoin⟩

lemma groups_adjoin {groups : List (List Node × Node)} {start stop : Nat}
    (hcovers : ∀ g ∈ groups, ∀ first last, EndToEnd g.1 first last → Covers g.2 g.1 first last)
    (hlaid : EndToEnd (groups.flatMap Prod.fst) start stop) :
    Adjoin (groups.map Prod.snd) start stop ∧
      (groups.map Prod.snd).flatMap leaves = groups.flatMap Prod.fst := by
  induction groups generalizing start with
  | nil => exact ⟨hlaid, rfl⟩
  | cons g groups ih =>
    rw [List.flatMap_cons] at hlaid
    obtain ⟨middle, hg, hgroups⟩ := endToEnd_append.mp hlaid
    have hcover := hcovers g List.mem_cons_self start middle hg
    obtain ⟨hadjoin, hleaves⟩ := ih (fun g hg => hcovers g (List.mem_cons_of_mem _ hg)) hgroups
    constructor
    · rw [← hcover.stop_eq] at hadjoin
      exact ⟨hcover.start_eq, hcover.valid, hadjoin⟩
    · rw [List.map_cons, List.flatMap_cons, hcover.leaves_eq, hleaves, List.flatMap_cons]

lemma nests_covers {ls : List Node} {n : Node} (h : Nests ls n) {start stop : Nat}
    (hlaid : EndToEnd ls start stop) : Covers n ls start stop := by
  induction h generalizing start stop with
  | leaf kind text start => exact leaf_covers hlaid
  | container kind groups hne h ih =>
    obtain ⟨hadjoin, hleaves⟩ := groups_adjoin (fun g hg _ _ hg' => ih g hg hg') hlaid
    exact container_covers kind (by simpa using hne) hadjoin hleaves

lemma endToEnd_layLeaves (start : Nat) (pieces : List (Kind × String)) :
    EndToEnd (layLeaves start pieces) start
      (start + Utf8.size (String.join (pieces.map Prod.snd))) := by
  induction pieces generalizing start with
  | nil => rfl
  | cons piece pieces ih =>
    obtain ⟨kind, text⟩ := piece
    refine ⟨rfl, ?_⟩
    rw [List.map_cons, String.join_cons, Utf8.size_append, ← Nat.add_assoc]
    exact ih _

lemma content_layLeaves (start : Nat) (pieces : List (Kind × String)) :
    (layLeaves start pieces).map content = pieces.map Prod.snd := by
  induction pieces generalizing start with
  | nil => rfl
  | cons piece pieces ih => exact congrArg (piece.2 :: ·) (ih _)

lemma length_layLeaves (start : Nat) (pieces : List (Kind × String)) :
    (layLeaves start pieces).length = pieces.length := by
  have h := congrArg List.length (content_layLeaves start pieces)
  rwa [List.length_map, List.length_map] at h

lemma extract_of_isPrefix {bytes part : List UInt8} {start : Nat} (h : part <+: bytes.drop start) :
    bytes.extract start (start + part.length) = part := by
  rw [List.extract_eq_take_drop, Nat.add_sub_cancel_left, ← List.prefix_iff_eq_take.mp h]

/-- Leaves laid back to back from a position of the source where their texts stand make a valid tree
that spans these texts, however they are nested. Its annotated text is what it spans in the source,
and every leaf is a segment that begins where the leaf starts. -/
theorem nested_leaves_reconstruct (pieces : List (Kind × String)) (o : Nat) (root : Node)
    (source : String) (hnests : Nests (layLeaves o pieces) root)
    (hsource : Utf8.encode (String.join (pieces.map Prod.snd)) <+: (Utf8.encode source).drop o) :
    root.validate = .ok () ∧
    root.start = o ∧ root.stop = o + Utf8.size (String.join (pieces.map Prod.snd)) ∧
    Utf8.encode root.annotate.text = (Utf8.encode source).extract root.start root.stop ∧
    root.annotate.size = root.length ∧
    root.annotate.segments.length = pieces.length ∧
    ∀ i l, (layLeaves o pieces)[i]? = some l →
      ∃ s, root.annotate.segments[i]? = some s ∧ l.text = some s.content ∧
        root.annotate.position i = l.start - o ∧
        Utf8.BeginsAt s.content root.annotate.text (l.start - o) := by
  have hlaid := endToEnd_layLeaves o pieces
  obtain ⟨hleaves, hstart, hstop, hvalid⟩ := nests_covers hnests hlaid
  rw [← hleaves, ← hstop, ← hstart] at hlaid
  obtain ⟨hsize, hpositions⟩ := (endToEnd_leaves hvalid).mp hlaid
  have htext : root.annotate.text = String.join (pieces.map Prod.snd) := by
    rw [text_annotate, hleaves, content_layLeaves]
  refine ⟨hvalid, hstart, hstop, ?_, hsize, ?_, ?_⟩
  · rw [htext, hstart, hstop, ← Utf8.length_encode, extract_of_isPrefix hsource]
  · rw [segments_annotate, List.length_map, hleaves, length_layLeaves]
  · intro i l hl
    rw [← hleaves] at hl
    have hleaf := (mem_leaves (List.mem_of_getElem? hl)).2
    refine ⟨l.segment, ?_, ?_, ?_, ?_⟩
    · rw [segments_annotate, List.getElem?_map, hl]
      rfl
    · rw [segment_content, text_of_isLeaf hleaf]
    · rw [hpositions i l hl, hstart]
    · rw [segment_content, ← hstart]
      exact begins_of_endToEnd hvalid hlaid hl

def nestedTree : Node :=
  container .file
    [container .block [leaf .boldStart "*" 2],
      container .listItem [container .list [leaf .text "é" 3, leaf .text "" 5], leaf .boldEnd "*" 5]]

theorem nested_leaves_reconstruct_nestedTree :
    nestedTree.validate = .ok () ∧ nestedTree.start = 2 ∧ nestedTree.stop = 6 ∧
    Utf8.encode nestedTree.annotate.text = (Utf8.encode "a *é*.").extract 2 6 ∧
    nestedTree.annotate.segments.length = 4 ∧
    nestedTree.annotate.position 3 = 3 := by
  let pieces : List (Kind × String) :=
    [(.boldStart, "*"), (.text, "é"), (.text, ""), (.boldEnd, "*")]
  have hblock : Nests [leaf .boldStart "*" 2] (container .block [leaf .boldStart "*" 2]) :=
    .container .block [([_], _)] (by simp) (by simpa using .leaf _ _ _)
  have hlist : Nests [leaf .text "é" 3, leaf .text "" 5]
      (container .list [leaf .text "é" 3, leaf .text "" 5]) :=
    .container .list [([_], _), ([_], _)] (by simp) (by simpa using ⟨.leaf _ _ _, .leaf _ _ _⟩)
  have hitem := Nests.container .listItem [(_, _), ([leaf .boldEnd "*" 5], _)] (by simp)
    (by simpa using ⟨hlist, .leaf _ _ _⟩)
  have hnests := Nests.container .file [(_, _), (_, _)] (by simp) (by simpa using ⟨hblock, hitem⟩)
  obtain ⟨hvalid, hstart, hstop, htext, -, hlength, hleaves⟩ :=
    nested_leaves_reconstruct pieces 2 nestedTree "a *é*." hnests (by decide)
  obtain ⟨s, -, -, hposition, -⟩ := hleaves 3 (leaf .boldEnd "*" 5) rfl
  exact ⟨hvalid, hstart, hstop, htext, hlength, hposition⟩

end AdocProse.Node
