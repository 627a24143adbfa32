import AdocProse.Proofs.Annotation.Segments
import AdocProse.Proofs.Tree.RoundTrip
import AdocProse.Proofs.Tree.Spans

/-! Positions in the text of an annotated tree are positions in the document exactly if the texts of
the leaves are laid end to end over the span of the tree. Reading a document does not ensure it. -/

namespace AdocProse.Node

/-- The texts of the leaves lie end to end from `start` to `stop`, each where its leaf starts. -/
def EndToEnd : List Node → Nat → Nat → Prop
  | [], start, stop => start = stop
  | l :: ls, start, stop => l.start = start ∧ EndToEnd ls (start + Utf8.size l.content) stop

lemma endToEnd_append {ls ls' : List Node} {start stop : Nat} :
    EndToEnd (ls ++ ls') start stop ↔ ∃ middle, EndToEnd ls start middle ∧ EndToEnd ls' middle stop := by
  induction ls generalizing start with
  | nil => simp [EndToEnd]
  | cons l ls ih => simp only [List.cons_append, EndToEnd, ih, exists_and_left, and_assoc]

lemma endToEnd_iff {ls : List Node} {start stop : Nat} :
    EndToEnd ls start stop ↔ stop = start + Utf8.total (ls.map content) ∧
      ∀ i l, ls[i]? = some l → l.start = start + Utf8.total ((ls.take i).map content) := by
  induction ls generalizing start with
  | nil => simp [EndToEnd, Utf8.total, eq_comm]
  | cons l ls ih =>
    rw [EndToEnd, ih]
    constructor
    · rintro ⟨hl, hstop, hls⟩
      refine ⟨by rw [hstop, List.map_cons, Utf8.total, Nat.add_assoc], ?_⟩
      intro i m hm
      cases i with
      | zero =>
        cases hm
        exact hl
      | succ i =>
        rw [List.take_succ_cons, List.map_cons, Utf8.total, ← Nat.add_assoc]
        exact hls i m hm
    · rintro ⟨hstop, hls⟩
      refine ⟨hls 0 l rfl, by rw [hstop, List.map_cons, Utf8.total, Nat.add_assoc], ?_⟩
      intro i m hm
      have hnext := hls (i + 1) m hm
      rwa [List.take_succ_cons, List.map_cons, Utf8.total, ← Nat.add_assoc] at hnext

section

variable {n : Node} (hvalid : n.validate = .ok ())
include hvalid

lemma leaf_inside {l : Node} (hl : l ∈ n.leaves) : n.start ≤ l.start :=
  (nodes_inside hvalid (mem_leaves hl).1).1

lemma endToEnd_leaves :
    EndToEnd n.leaves n.start n.stop ↔ n.annotate.size = n.length ∧
      ∀ i l, n.leaves[i]? = some l → n.annotate.position i = l.start - n.start := by
  have hspan : n.start ≤ n.stop := (validate_ok.mp hvalid).1
  rw [endToEnd_iff, ← size_annotate, length]
  simp only [← position_annotate]
  constructor
  · rintro ⟨hstop, hls⟩
    refine ⟨by omega, fun i l hl => ?_⟩
    have hl := hls i l hl
    omega
  · rintro ⟨hsize, hls⟩
    refine ⟨by omega, fun i l hl => ?_⟩
    have hposition := hls i l hl
    have hinside := leaf_inside hvalid (List.mem_of_getElem? hl)
    omega

lemma begins_of_endToEnd (hlaid : EndToEnd n.leaves n.start n.stop) {i : Nat} {l : Node}
    (hl : n.leaves[i]? = some l) :
    Utf8.BeginsAt l.content n.annotate.text (l.start - n.start) := by
  have hsegment : n.annotate.segments[i]? = some l.segment := by
    rw [segments_annotate, List.getElem?_map, hl]
    rfl
  have hbegins := AnnotatedText.begins_at hsegment
  rwa [segment_content, ((endToEnd_leaves hvalid).mp hlaid).2 i l hl] at hbegins

end

def StandsIn (source : String) (l : Node) : Prop :=
  Utf8.encode l.content <+: (Utf8.encode source).drop l.start

lemma bytes_of_endToEnd {source : String} {ls : List Node} {start stop : Nat}
    (hlaid : EndToEnd ls start stop) (hsource : ∀ l ∈ ls, l.StandsIn source) :
    Utf8.encode (String.join (ls.map content)) = (Utf8.encode source).extract start stop := by
  induction ls generalizing start with
  | nil =>
    rw [EndToEnd] at hlaid
    simp [hlaid, Utf8.encode]
  | cons l ls ih =>
    obtain ⟨hl, hlaid⟩ := hlaid
    have hspan : start + Utf8.size l.content ≤ stop := by
      rw [(endToEnd_iff.mp hlaid).1]
      exact Nat.le_add_right _ _
    obtain ⟨rest, hrest⟩ := hsource l List.mem_cons_self
    rw [hl] at hrest
    have hnext : rest = (Utf8.encode source).drop (start + Utf8.size l.content) := by
      rw [← List.drop_drop, ← hrest, ← Utf8.length_encode, List.drop_left]
    have htake : stop - start = (Utf8.encode l.content).length + (stop - (start + Utf8.size l.content)) := by
      rw [Utf8.length_encode]
      omega
    rw [List.map_cons, String.join_cons, Utf8.encode_append,
      ih hlaid fun m hm => hsource m (List.mem_cons_of_mem _ hm), List.extract_eq_take_drop,
      List.extract_eq_take_drop, ← hrest, htake, List.take_length_add_append, hnext]

/-- No text of a leaf is dropped or repeated. The segments stand where their leaves start in the
document, and fill the span of the tree, exactly if the leaves are laid end to end over it. -/
theorem positions_of_accepted (bytes : List UInt8) (t : Node) (h : ofJson bytes = .ok t) :
    t.annotate.segments = t.leaves.map segment ∧
    t.annotate.text = String.join (t.leaves.map content) ∧
    (EndToEnd t.leaves t.start t.stop ↔ t.annotate.size = t.length ∧
      ∀ i l, t.leaves[i]? = some l → t.annotate.position i = l.start - t.start) ∧
    (EndToEnd t.leaves t.start t.stop →
      (∀ l ∈ t.leaves, Utf8.BeginsAt l.content t.annotate.text (l.start - t.start)) ∧
      ∀ source, (∀ l ∈ t.leaves, l.StandsIn source) →
        Utf8.encode t.annotate.text = (Utf8.encode source).extract t.start t.stop) := by
  have hvalid := validate_of_ofJson h
  refine ⟨segments_annotate t, text_annotate t, endToEnd_leaves hvalid, ?_⟩
  intro hlaid
  constructor
  · intro l hl
    obtain ⟨i, hi⟩ := List.mem_iff_getElem?.mp hl
    exact begins_of_endToEnd hvalid hlaid hi
  · intro source hsource
    rw [text_annotate]
    exact bytes_of_endToEnd hlaid hsource

def laidTree : Node :=
  ⟨.file, none, 3, 8, [⟨.text, some "hé", 3, 6, []⟩,
    ⟨.block, none, 6, 8, [⟨.boldStart, some "*", 6, 7, []⟩, ⟨.text, some "", 7, 7, []⟩,
      ⟨.boldEnd, some "*", 7, 8, []⟩]⟩]⟩

lemma leaves_laidTree : laidTree.leaves =
    [⟨.text, some "hé", 3, 6, []⟩, ⟨.boldStart, some "*", 6, 7, []⟩, ⟨.text, some "", 7, 7, []⟩,
      ⟨.boldEnd, some "*", 7, 8, []⟩] := by
  decide +kernel

theorem positions_of_accepted_laidTree :
    ofJson (Utf8.encode laidTree.toJson) = .ok laidTree ∧
    EndToEnd laidTree.leaves 3 8 ∧
    laidTree.annotate.size = 5 ∧
    laidTree.annotate.position 3 = 4 ∧
    Utf8.encode laidTree.annotate.text = (Utf8.encode "== hé** is").extract 3 8 := by
  have hread : ofJson (Utf8.encode laidTree.toJson) = .ok laidTree :=
    ofJson_valid (by decide) (by decide) rfl
  have hlaid : EndToEnd laidTree.leaves 3 8 := by
    rw [leaves_laidTree]
    exact ⟨rfl, rfl, rfl, rfl, rfl⟩
  obtain ⟨-, -, hpositions, hsource⟩ := positions_of_accepted _ laidTree hread
  obtain ⟨hsize, hposition⟩ := hpositions.mp hlaid
  refine ⟨hread, hlaid, hsize, ?_, (hsource hlaid).2 "== hé** is" ?_⟩
  · exact hposition 3 ⟨.boldEnd, some "*", 7, 8, []⟩ (by rw [leaves_laidTree]; rfl)
  · rw [leaves_laidTree]
    unfold StandsIn
    decide

def swappedTree : Node :=
  ⟨.file, none, 0, 4, [⟨.text, some "cd", 2, 4, []⟩, ⟨.text, some "ab", 0, 2, []⟩]⟩

theorem swapped_leaves_accepted :
    ¬ ∀ bytes t, ofJson bytes = .ok t → t.annotate.size = t.length ∧
      ∀ l ∈ t.leaves, Utf8.BeginsAt l.content t.annotate.text (l.start - t.start) := by
  intro h
  have hread : ofJson (Utf8.encode swappedTree.toJson) = .ok swappedTree :=
    ofJson_valid (by decide) (by decide) rfl
  have hfirst : ⟨.text, some "cd", 2, 4, []⟩ ∈ swappedTree.leaves := by decide +kernel
  have hbytes := ((h _ _ hread).2 _ hfirst).bytes_at
  exact absurd hbytes (by decide)

end AdocProse.Node
