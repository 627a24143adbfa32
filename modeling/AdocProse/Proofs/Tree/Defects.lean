import AdocProse.Proofs.Tree.Presentation

/-! A document in which any node has a defect is malformed as a whole, however deep the node is and whatever the
spans are. A document of objects without a defect is not malformed, unless it is nested too deeply or some string
in it is no text. -/

namespace AdocProse

namespace Json

variable {α β : Type} {reads : α → β → Prop} {vs : List α}

lemma Given.length_le {o : Option β} (h : Given reads vs o) : vs.length ≤ 1 := by
  cases o with
  | none => simp [show vs = [] from h]
  | some b =>
    obtain ⟨a, rfl, -⟩ := h
    exact Nat.le_refl 1

lemma Given.exists_reads {o : Option β} (h : Given reads vs o) {a : α} (ha : a ∈ vs) : ∃ b, reads a b := by
  cases o with
  | none =>
    rw [show vs = [] from h] at ha
    cases ha
  | some b =>
    obtain ⟨c, rfl, hc⟩ := h
    obtain rfl := List.mem_singleton.mp ha
    exact ⟨b, hc⟩

lemma Given.ne_nil {b : β} (h : Given reads vs (some b)) : vs ≠ [] := by
  obtain ⟨a, rfl, -⟩ := h
  exact List.cons_ne_nil a []

lemma exists_given (hfew : vs.length ≤ 1) (hreads : ∀ a ∈ vs, ∃ b, reads a b) : ∃ o, Given reads vs o := by
  rcases vs with _ | ⟨a, _ | ⟨a', vs⟩⟩
  · exact ⟨none, rfl⟩
  · obtain ⟨b, hb⟩ := hreads a List.mem_cons_self
    exact ⟨some b, a, rfl, hb⟩
  · simp at hfew

lemma exists_given_some (hne : vs ≠ []) (hfew : vs.length ≤ 1) (hreads : ∀ a ∈ vs, ∃ b, reads a b) :
    ∃ b, Given reads vs (some b) := by
  obtain ⟨_ | b, h⟩ := exists_given hfew hreads
  · exact absurd h hne
  · exact ⟨b, h⟩

end Json

namespace Node

open Json

/-- The node that the second term writes is in the tree that the first one writes. -/
inductive HasNode : Term → Term → Prop
  | self {x} : HasNode x x
  | child {ms xs y z} (hxs : .array xs ∈ valuesOf "children" ms) (hy : y ∈ xs) (hz : HasNode y z) :
    HasNode (.object ms) z

inductive Defect (ms : List (List Piece × Term)) : Prop
  | missing {name} (hname : name ∈ ["type", "startOffset", "endOffset"]) (h : valuesOf name ms = [])
  | repeated {name} (hname : name ∈ fieldNames) (h : 2 ≤ (valuesOf name ms).length)
  | kind {v} (hv : v ∈ valuesOf "type" ms) (h : ∀ k, ¬ReadsKind v k)
  | text {v} (hv : v ∈ valuesOf "text" ms) (hnull : v ≠ .null) (h : ∀ ps, v ≠ .string ps)
  | children {v} (hv : v ∈ valuesOf "children" ms) (hnull : v ≠ .null) (h : ∀ xs, v ≠ .array xs)
  | offset {name v} (hname : name = "startOffset" ∨ name = "endOffset") (hv : v ∈ valuesOf name ms)
    (h : ∀ n, ¬ReadsOffset v n)

/-- The names of the members are texts, and so are the strings that are their values. -/
def Legible (ms : List (List Piece × Term)) : Prop :=
  ∀ m ∈ ms, (∃ name, StringLit.text ⟨m.1, none⟩ = .ok name) ∧
    ∀ ps, m.2 = .string ps → ∃ s, StringLit.text ⟨ps, none⟩ = .ok s

section

variable {ms : List (List Piece × Term)} {t : Node} {x y : Term}

lemma not_defect_of_describes (h : Describes DenotesList ms t) : ¬Defect ms := by
  obtain ⟨-, hkind, ⟨text, htext, -⟩, hstart, hstop, children, hchildren, -⟩ := h
  rintro (⟨hname, h⟩ | ⟨hname, h⟩ | ⟨hv, h⟩ | ⟨hv, hnull, h⟩ | ⟨hv, hnull, h⟩ | ⟨rfl | rfl, hv, h⟩)
  · simp only [List.mem_cons, List.not_mem_nil, or_false] at hname
    rcases hname with rfl | rfl | rfl
    · exact hkind.ne_nil h
    · exact hstart.ne_nil h
    · exact hstop.ne_nil h
  · simp only [fieldNames, List.mem_cons, List.not_mem_nil, or_false] at hname
    rcases hname with rfl | rfl | rfl | rfl | rfl
    · exact absurd hkind.length_le (Nat.not_le.mpr h)
    · exact absurd htext.length_le (Nat.not_le.mpr h)
    · exact absurd hstart.length_le (Nat.not_le.mpr h)
    · exact absurd hstop.length_le (Nat.not_le.mpr h)
    · exact absurd hchildren.length_le (Nat.not_le.mpr h)
  · obtain ⟨k, hk⟩ := hkind.exists_reads hv
    exact h k hk
  · obtain ⟨o, ⟨hv, -⟩ | ⟨ps, s, hv, -⟩⟩ := htext.exists_reads hv
    · exact hnull hv
    · exact h ps hv
  · obtain ⟨ns, room, hns⟩ := hchildren.exists_reads hv
    obtain ⟨hv, -⟩ | ⟨xs, hv, -⟩ := list_ok.mp hns
    · exact hnull hv
    · exact h xs hv
  · obtain ⟨n, hn⟩ := hstart.exists_reads hv
    exact h n hn
  · obtain ⟨n, hn⟩ := hstop.exists_reads hv
    exact h n hn

lemma HasNode.denotes (h : HasNode x y) (hx : Denotes x t) : ∃ n, Denotes y n := by
  induction h generalizing t with
  | self => exact ⟨t, hx⟩
  | child hxs hy hz ih =>
    obtain ⟨ns, hns⟩ := (denotes_object.mp hx).children_read hxs
    have hread : List.Forall₂ (fun x n => (∃ n, Denotes x n) ∧ Denotes x n) _ ns :=
      (denotesList_array.mp hns).imp fun x n hn => ⟨⟨n, hn⟩, hn⟩
    obtain ⟨n, hn⟩ := ((List.forall₂_and_left _ _).mp hread).1 _ hy
    exact ih hn

def Sound (x : Term) : Prop :=
  ∃ ms, x = .object ms ∧ Legible ms ∧ ¬Defect ms

lemma describes_of_sound (hlegible : Legible ms) (hsound : ¬Defect ms)
    (hlists : ∀ xs, .array xs ∈ valuesOf "children" ms → ∃ ns, DenotesList (.array xs) ns) :
    ∃ t, Describes DenotesList ms t := by
  have hfew (name : String) (hname : name ∈ fieldNames) : (valuesOf name ms).length ≤ 1 :=
    Nat.le_of_not_lt fun h => hsound (.repeated hname h)
  have hgiven (name : String) (hname : name ∈ ["type", "startOffset", "endOffset"]) : valuesOf name ms ≠ [] :=
    fun h => hsound (.missing hname h)
  have hkind : ∃ kind, Given ReadsKind (valuesOf "type" ms) (some kind) := by
    apply exists_given_some (hgiven _ (by decide)) (hfew _ (by decide))
    exact fun v hv => by_contra fun h => hsound (.kind hv (not_exists.mp h))
  have htext : ∃ o, Given ReadsText (valuesOf "text" ms) o := by
    apply exists_given (hfew _ (by decide))
    intro v hv
    by_cases hnull : v = .null
    · exact ⟨none, .inl ⟨hnull, rfl⟩⟩
    · obtain ⟨ps, rfl⟩ : ∃ ps, v = .string ps :=
        by_contra fun h => hsound (.text hv hnull (not_exists.mp h))
      obtain ⟨m, hm, hps⟩ := List.mem_map.mp hv
      obtain ⟨s, hs⟩ := (hlegible m (List.mem_filter.mp hm).1).2 ps hps
      exact ⟨some s, .inr ⟨ps, s, rfl, hs, rfl⟩⟩
  have hoffset (name : String) (hname : name = "startOffset" ∨ name = "endOffset") :
      ∃ n, Given ReadsOffset (valuesOf name ms) (some n) := by
    apply exists_given_some
    · exact hgiven name (by rcases hname with rfl | rfl <;> decide)
    · exact hfew name (by rcases hname with rfl | rfl <;> decide)
    · exact fun v hv => by_contra fun h => hsound (.offset hname hv (not_exists.mp h))
  have hchildren : ∃ o, Given DenotesList (valuesOf "children" ms) o := by
    apply exists_given (hfew _ (by decide))
    intro v hv
    by_cases hnull : v = .null
    · exact ⟨[], hnull ▸ denotesList_null.mpr rfl⟩
    · obtain ⟨xs, rfl⟩ : ∃ xs, v = .array xs :=
        by_contra fun h => hsound (.children hv hnull (not_exists.mp h))
      exact hlists xs hv
  obtain ⟨kind, hkind⟩ := hkind
  obtain ⟨text, htext⟩ := htext
  obtain ⟨start, hstart⟩ := hoffset "startOffset" (.inl rfl)
  obtain ⟨stop, hstop⟩ := hoffset "endOffset" (.inr rfl)
  obtain ⟨children, hchildren⟩ := hchildren
  exact ⟨⟨kind, text.join, start, stop, children.getD []⟩, fun m hm => (hlegible m hm).1, hkind,
    ⟨text, htext, rfl⟩, hstart, hstop, children, hchildren, rfl⟩

lemma exists_forall₂ {α β : Type} {R : α → β → Prop} {xs : List α} (h : ∀ a ∈ xs, ∃ b, R a b) :
    ∃ ys, List.Forall₂ R xs ys := by
  induction xs with
  | nil => exact ⟨[], .nil⟩
  | cons a xs ih =>
    rw [List.forall_mem_cons] at h
    obtain ⟨b, hb⟩ := h.1
    obtain ⟨ys, hys⟩ := ih h.2
    exact ⟨b :: ys, .cons hb hys⟩

lemma denotes_of_sound (x : Term) : ((∀ y, HasNode x y → Sound y) → ∃ t, Denotes x t) ∧
    ∀ xs, x = .array xs → (∀ z ∈ xs, ∀ y, HasNode z y → Sound y) → ∃ ns, DenotesList x ns := by
  -- The children are below the object only as the items of a list, so lists are part of the induction.
  induction x using Term.induct with
  | null | bool | number | string =>
    refine ⟨fun h => ?_, nofun⟩
    obtain ⟨ms, hms, -⟩ := h _ .self
    cases hms
  | array items ih =>
    refine ⟨fun h => ?_, ?_⟩
    · obtain ⟨ms, hms, -⟩ := h _ .self
      cases hms
    · rintro _ ⟨⟩ h
      obtain ⟨ns, hns⟩ := exists_forall₂ fun z hz => (ih z hz).1 (h z hz)
      exact ⟨ns, denotesList_array.mpr hns⟩
  | object members ih =>
    refine ⟨fun h => ?_, nofun⟩
    obtain ⟨_, ⟨⟩, hlegible, hsound⟩ := h _ .self
    obtain ⟨t, ht⟩ : ∃ t, Describes DenotesList members t := by
      apply describes_of_sound hlegible hsound
      intro xs hxs
      obtain ⟨m, hm, hvalue⟩ := List.mem_map.mp hxs
      rw [← hvalue]
      exact (ih m (List.mem_filter.mp hm).1).2 xs hvalue fun z hz y hy => h y (.child hxs hz hy)
    exact ⟨t, denotes_object.mpr ht⟩

lemma ofJson_malformed {document : List UInt8} (hx : x.Spelled document) (h : ∀ t, ¬Denotes x t) :
    ∃ f, ofJson document = .error (.malformed f) := by
  rw [ofJson, read_spelled hx]
  cases hvalue : ofValue x.value Document.depth with
  | error f => exact ⟨f, rfl⟩
  | ok t => exact absurd (ofValue_ok.mp hvalue).2 (h t)

lemma ofJson_not_malformed {document : List UInt8} (hx : x.Spelled document)
    (hdepth : readingDepth x ≤ Document.depth) (ht : Denotes x t) (f : Fault) :
    ofJson document ≠ .error (.malformed f) := by
  rw [ofJson, read_spelled hx, ofValue_ok.mpr ⟨hdepth, ht⟩]
  cases hvalid : t.validate <;> simp [hvalid]

end

/-- One defect at any depth makes the whole document malformed, also where spans are invalid. If the nodes are
written as objects of texts and are not nested too deeply, nothing else does. -/
theorem malformed_of_defect {x : Term} {document : List UInt8} (hx : x.Spelled document) :
    (∀ ms, HasNode x (.object ms) → Defect ms → ∃ f, ofJson document = .error (.malformed f)) ∧
    ((∀ y, HasNode x y → ∃ ms, y = .object ms ∧ Legible ms) → readingDepth x ≤ Document.depth →
      ((∃ f, ofJson document = .error (.malformed f)) ↔ ∃ ms, HasNode x (.object ms) ∧ Defect ms)) := by
  have hrefused : ∀ ms, HasNode x (.object ms) → Defect ms → ∃ f, ofJson document = .error (.malformed f) := by
    intro ms hms hdefect
    apply ofJson_malformed hx
    intro t ht
    obtain ⟨n, hn⟩ := hms.denotes ht
    exact not_defect_of_describes (denotes_object.mp hn) hdefect
  refine ⟨hrefused, fun hobjects hdepth => ⟨?_, fun ⟨ms, hms, hdefect⟩ => hrefused ms hms hdefect⟩⟩
  rintro ⟨f, hf⟩
  by_contra hnone
  have hsound : ∀ y, HasNode x y → Sound y := by
    intro y hy
    obtain ⟨ms, rfl, hlegible⟩ := hobjects y hy
    exact ⟨ms, rfl, hlegible, fun hdefect => hnone ⟨ms, hy, hdefect⟩⟩
  obtain ⟨t, ht⟩ := (denotes_of_sound x).1 hsound
  exact ofJson_not_malformed hx hdepth ht f hf

section

open Term

lemma mem_valuesOf_printed {name : String} {v : Term} {ms : List (String × Term)} :
    v ∈ valuesOf name (ms.map fun m => ((StringLit.printed m.1).pieces, m.2)) ↔ (name, v) ∈ ms := by
  have htext (key : String) : StringLit.text ⟨(StringLit.printed key).pieces, none⟩ = .ok key :=
    StringLit.text_printed key
  simp only [valuesOf, List.mem_map, List.mem_filter, decide_eq_true_eq]
  constructor
  · rintro ⟨_, ⟨⟨m, hm, rfl⟩, hname⟩, rfl⟩
    rw [htext, Except.ok.injEq] at hname
    rwa [← hname]
  · intro h
    exact ⟨_, ⟨⟨_, h, rfl⟩, htext name⟩, rfl⟩

lemma hasNode_ofMembers {ms : List (String × Term)} {y : Term} : HasNode (.ofMembers ms) y ↔
    y = .ofMembers ms ∨ ∃ xs, ("children", .array xs) ∈ ms ∧ ∃ z ∈ xs, HasNode z y := by
  constructor
  · rintro (_ | ⟨hxs, hz, hy⟩)
    · exact .inl rfl
    · exact .inr ⟨_, mem_valuesOf_printed.mp hxs, _, hz, hy⟩
  · rintro (rfl | ⟨xs, hxs, z, hz, hy⟩)
    · exact .self
    · exact .child (mem_valuesOf_printed.mpr hxs) hz hy

-- a node below a text, in a file whose span is inverted
def hidingMembers (hidden : List (String × Term)) : List (String × Term) :=
  [("type", .ofString "FILE"), ("startOffset", .number (.printed 5)), ("endOffset", .number (.printed 2)),
    ("children", .array [.ofMembers (("text", .ofString "a") :: ("children", .array [.ofMembers hidden]) ::
      leafMembers "TEXT" (.number (.printed 1)))])]

def hidingText (hidden : List (String × List Char)) : List Char :=
  Printer.object [("type", Printer.string "FILE"), ("startOffset", Decimal.chars 5), ("endOffset", Decimal.chars 2),
    ("children", Printer.array [Printer.object [("text", Printer.string "a"),
      ("children", Printer.array [Printer.object hidden]), ("type", Printer.string "TEXT"),
      ("startOffset", Decimal.chars 0), ("endOffset", Decimal.chars 1)]])]

lemma spelled_hiding {hidden : List (String × Term)} {texts : List (String × List Char)}
    (h : List.Forall₂ (fun m text => m.1 = text.1 ∧ Token.Written m.2.tokens text.2) hidden texts) :
    (ofMembers (hidingMembers hidden)).Spelled (Utf8.bytes (hidingText texts)) := by
  apply Token.Written.laid
  apply written_object
  refine .cons ⟨rfl, written_string _⟩ (.cons ⟨rfl, written_natural 5⟩ (.cons ⟨rfl, written_natural 2⟩ ?_))
  refine .cons ⟨rfl, written_array (.cons (written_object ?_) .nil)⟩ .nil
  refine .cons ⟨rfl, written_string _⟩ (.cons ⟨rfl, written_array (.cons (written_object h) .nil)⟩ ?_)
  exact .cons ⟨rfl, written_string _⟩ (.cons ⟨rfl, written_natural 0⟩ (.cons ⟨rfl, written_natural 1⟩ .nil))

lemma hasNode_hiding {hidden : List (String × Term)} {y : Term} (hleaf : ∀ xs, ("children", .array xs) ∉ hidden) :
    HasNode (.ofMembers (hidingMembers hidden)) y ↔ y = .ofMembers (hidingMembers hidden) ∨
      y = .ofMembers (("text", .ofString "a") :: ("children", .array [.ofMembers hidden]) ::
        leafMembers "TEXT" (.number (.printed 1))) ∨ y = .ofMembers hidden := by
  have hhidden : HasNode (.ofMembers hidden) y ↔ y = .ofMembers hidden := by
    rw [hasNode_ofMembers]
    exact or_iff_left fun ⟨xs, hxs, _⟩ => hleaf xs hxs
  rw [hasNode_ofMembers]
  simp [hidingMembers, hasNode_ofMembers, hhidden, leafMembers]

lemma legible_ofMembers {ms : List (String × Term)}
    (h : ∀ m ∈ ms, ∀ ps, m.2 = .string ps → ∃ s, m.2 = .ofString s) :
    ∃ ms', ofMembers ms = .object ms' ∧ Legible ms' := by
  refine ⟨_, rfl, fun m hm => ?_⟩
  obtain ⟨⟨key, x⟩, hx, rfl⟩ := List.mem_map.mp hm
  refine ⟨⟨key, StringLit.text_printed key⟩, fun ps hps => ?_⟩
  obtain ⟨s, hs⟩ := h _ hx ps hps
  obtain ⟨⟩ := hps.symm.trans hs
  exact ⟨s, StringLit.text_printed s⟩

def wholeMembers : List (String × Term) :=
  leafMembers "TEXT" (.number (.printed 1))

def wholeTexts : List (String × List Char) :=
  [("type", Printer.string "TEXT"), ("startOffset", Decimal.chars 0), ("endOffset", Decimal.chars 1)]

def endlessMembers : List (String × Term) :=
  [("type", .ofString "TEXT"), ("startOffset", .number (.printed 0))]

def endlessTexts : List (String × List Char) :=
  [("type", Printer.string "TEXT"), ("startOffset", Decimal.chars 0)]

lemma spelled_hiding_whole : (ofMembers (hidingMembers wholeMembers)).Spelled (Utf8.bytes (hidingText wholeTexts)) :=
  spelled_hiding (.cons ⟨rfl, written_string _⟩
    (.cons ⟨rfl, written_natural 0⟩ (.cons ⟨rfl, written_natural 1⟩ .nil)))

lemma spelled_hiding_endless :
    (ofMembers (hidingMembers endlessMembers)).Spelled (Utf8.bytes (hidingText endlessTexts)) :=
  spelled_hiding (.cons ⟨rfl, written_string _⟩ (.cons ⟨rfl, written_natural 0⟩ .nil))

end

theorem malformed_of_defect_hidden :
    (∃ f, ofJson (Utf8.bytes (hidingText endlessTexts)) = .error (.malformed f)) ∧
    ofJson (Utf8.bytes (hidingText wholeTexts)) = .error (.invalidSpan ⟨.file, 5, 2, .inverted⟩) ∧
    ¬∃ ms, HasNode (.ofMembers (hidingMembers wholeMembers)) (.object ms) ∧ Defect ms := by
  have hspan : ofJson (Utf8.bytes (hidingText wholeTexts)) = .error (.invalidSpan ⟨.file, 5, 2, .inverted⟩) := by
    decide +kernel
  refine ⟨?_, hspan, fun hdefect => ?_⟩
  · have hhidden : HasNode (.ofMembers (hidingMembers endlessMembers)) (.ofMembers endlessMembers) :=
      (hasNode_hiding (by simp [endlessMembers])).mpr (.inr (.inr rfl))
    apply (malformed_of_defect spelled_hiding_endless).1 _ hhidden
    exact @Defect.missing _ "endOffset" (by decide) (by decide +kernel)
  · have hdepth : readingDepth (.ofMembers (hidingMembers wholeMembers)) ≤ Document.depth := by decide +kernel
    have hobjects : ∀ y, HasNode (.ofMembers (hidingMembers wholeMembers)) y →
        ∃ ms, y = .object ms ∧ Legible ms := by
      intro y hy
      rcases (hasNode_hiding (by simp [wholeMembers, leafMembers, Term.ofString])).mp hy with rfl | rfl | rfl <;>
        apply legible_ofMembers <;> simp [hidingMembers, wholeMembers, leafMembers]
    obtain ⟨f, hf⟩ := ((malformed_of_defect spelled_hiding_whole).2 hobjects hdepth).mpr hdefect
    rw [hspan] at hf
    cases hf

end Node

end AdocProse
