import AdocProse.Annotation
import AdocProse.Proofs.Text.Utf8
import AdocProse.Proofs.Tree.Leaves

/-! Annotating a tree makes one segment of every leaf, in order. Each segment begins in the text at
the byte where the segments before it end. -/

namespace AdocProse

namespace AnnotatedText

/-- The byte of the text at which the segment with the index `i` begins. -/
def position (a : AnnotatedText) (i : Nat) : Nat :=
  Utf8.total ((a.segments.take i).map Segment.content)

lemma begins_at {a : AnnotatedText} {i : Nat} {s : Segment} (h : a.segments[i]? = some s) :
    Utf8.BeginsAt s.content a.text (a.position i) := by
  obtain ⟨hi, hs⟩ := List.getElem?_eq_some_iff.mp h
  have hcut : a.segments = a.segments.take i ++ s :: a.segments.drop (i + 1) := by
    rw [← hs, ← List.drop_eq_getElem_cons hi, List.take_append_drop]
  refine ⟨String.join ((a.segments.take i).map Segment.content),
    String.join ((a.segments.drop (i + 1)).map Segment.content), ?_, Utf8.size_join _⟩
  rw [String.append_assoc, ← String.join_cons, ← List.map_cons, ← String.join_append,
    ← List.map_append, ← hcut, text]

end AnnotatedText

namespace Node

def content (n : Node) : String :=
  n.text.getD ""

lemma text_of_isLeaf {l : Node} (h : l.isLeaf = true) : l.text = some l.content := by
  obtain ⟨s, hs⟩ := Option.isSome_iff_exists.mp h
  rw [content, hs, Option.getD_some]

def segment (n : Node) : Segment :=
  n.kind.segment n.content

lemma segment_content (n : Node) : n.segment.content = n.content := by
  rw [segment, Kind.segment]
  split <;> rfl

lemma segments_addForest {ns : List Node}
    (h : ∀ n ∈ ns, ∀ a : AnnotatedText, (a.addTree n).segments = a.segments ++ n.leaves.map segment)
    (a : AnnotatedText) :
    (a.addForest ns).segments = a.segments ++ (ns.flatMap leaves).map segment := by
  induction ns generalizing a with
  | nil => simp [AnnotatedText.addForest]
  | cons n ns ih =>
    rw [AnnotatedText.addForest, ih (fun m hm => h m (List.mem_cons_of_mem _ hm)),
      h n List.mem_cons_self, List.flatMap_cons, List.map_append, List.append_assoc]

lemma segments_addTree (n : Node) (a : AnnotatedText) :
    (a.addTree n).segments = a.segments ++ n.leaves.map segment := by
  induction n using Node.induct generalizing a with
  | mk kind text start stop children ih =>
    cases text with
    | some s =>
      rw [leaves_of_leaf rfl]
      rfl
    | none =>
      rw [AnnotatedText.addTree, segments_addForest ih, leaves_of_container rfl]

lemma segments_annotate (n : Node) : n.annotate.segments = n.leaves.map segment := by
  rw [annotate, segments_addTree]
  rfl

lemma contents_annotate (n : Node) :
    n.annotate.segments.map Segment.content = n.leaves.map content := by
  rw [segments_annotate, List.map_map]
  exact List.map_congr_left fun l _ => segment_content l

lemma text_annotate (n : Node) : n.annotate.text = String.join (n.leaves.map content) := by
  rw [AnnotatedText.text, contents_annotate]

lemma size_annotate (n : Node) : n.annotate.size = Utf8.total (n.leaves.map content) := by
  rw [AnnotatedText.size, contents_annotate]

lemma position_annotate (n : Node) (i : Nat) :
    n.annotate.position i = Utf8.total ((n.leaves.take i).map content) := by
  rw [AnnotatedText.position, List.map_take, contents_annotate, List.map_take]

end Node

end AdocProse
