import AdocProse.Proofs.Json.Written
import AdocProse.Proofs.Tree.Description
import AdocProse.Proofs.Tree.Offset
import Mathlib.Logic.Relation

/-! Documents that present one tree in different ways are read as the same tree: the order of members, members
that a node does not have, the name space of a type, the ways of leaving out a text or children, the ways of
writing an offset and the blanks around tokens make no difference. -/

namespace AdocProse.Node

open Json

def fieldNames : List String :=
  ["type", "text", "startOffset", "endOffset", "children"]

/-- One change of presentation, at a node or at one below it. -/
inductive Change : Term → Term → Prop
  | order {ms ms'} (h : ms.Perm ms') : Change (.object ms) (.object ms')
  | unknown {ms₁ ms₂ key name v} (hkey : StringLit.text ⟨key, none⟩ = .ok name)
    (hname : name ∉ fieldNames) :
    Change (.object (ms₁ ++ ms₂)) (.object (ms₁ ++ (key, v) :: ms₂))
  | nameSpace {ms₁ ms₂ key ps qs tag} (hkey : StringLit.text ⟨key, none⟩ = .ok "type")
    (hps : StringLit.text ⟨ps, none⟩ = .ok tag) (hqs : StringLit.text ⟨qs, none⟩ = .ok ("AsciiDoc:" ++ tag))
    (hbare : ¬Kind.nameSpace <+: tag.toList) :
    Change (.object (ms₁ ++ (key, .string ps) :: ms₂)) (.object (ms₁ ++ (key, .string qs) :: ms₂))
  | noText {ms₁ ms₂ key} (hkey : StringLit.text ⟨key, none⟩ = .ok "text")
    (habsent : valuesOf "text" (ms₁ ++ ms₂) = []) :
    Change (.object (ms₁ ++ ms₂)) (.object (ms₁ ++ (key, .null) :: ms₂))
  | noChildren {ms₁ ms₂ key} (hkey : StringLit.text ⟨key, none⟩ = .ok "children")
    (habsent : valuesOf "children" (ms₁ ++ ms₂) = []) :
    Change (.object (ms₁ ++ ms₂)) (.object (ms₁ ++ (key, .null) :: ms₂))
  | emptyChildren {ms₁ ms₂ key} (hkey : StringLit.text ⟨key, none⟩ = .ok "children") :
    Change (.object (ms₁ ++ (key, .null) :: ms₂)) (.object (ms₁ ++ (key, .array []) :: ms₂))
  | offset {ms₁ ms₂ key name n v w} (hkey : StringLit.text ⟨key, none⟩ = .ok name)
    (hname : name = "startOffset" ∨ name = "endOffset") (hv : Offset.Form n v) (hw : Offset.Form n w) :
    Change (.object (ms₁ ++ (key, v) :: ms₂)) (.object (ms₁ ++ (key, w) :: ms₂))
  | child {ms₁ ms₂ key xs₁ xs₂ x x'} (hkey : StringLit.text ⟨key, none⟩ = .ok "children")
    (h : Change x x') :
    Change (.object (ms₁ ++ (key, .array (xs₁ ++ x :: xs₂)) :: ms₂))
      (.object (ms₁ ++ (key, .array (xs₁ ++ x' :: xs₂)) :: ms₂))
  | item {kind text start stop xs₁ xs₂ x x'} (h : Change x x') :
    Change (.array [kind, text, start, stop, .array (xs₁ ++ x :: xs₂)])
      (.array [kind, text, start, stop, .array (xs₁ ++ x' :: xs₂)])

section

variable {name : String} {key : List Piece} {v w : Term} {ms ms' ms₁ ms₂ : List (List Piece × Term)}
  {children : Term → List Node → Prop} {t : Node}

lemma valuesOf_insert_other (h : StringLit.text ⟨key, none⟩ ≠ .ok name) :
    valuesOf name (ms₁ ++ (key, v) :: ms₂) = valuesOf name (ms₁ ++ ms₂) := by
  simp [valuesOf, h]

lemma valuesOf_insert (h : StringLit.text ⟨key, none⟩ = .ok name) :
    valuesOf name (ms₁ ++ (key, v) :: ms₂) = valuesOf name ms₁ ++ v :: valuesOf name ms₂ := by
  simp [valuesOf, h]

lemma valuesOf_insert_absent (h : StringLit.text ⟨key, none⟩ = .ok name)
    (habsent : valuesOf name (ms₁ ++ ms₂) = []) : valuesOf name (ms₁ ++ (key, v) :: ms₂) = [v] := by
  have hboth : valuesOf name ms₁ = [] ∧ valuesOf name ms₂ = [] := by simpa [valuesOf] using habsent
  rw [valuesOf_insert h, hboth.1, hboth.2, List.nil_append]

lemma valuesOf_perm (h : ms.Perm ms') : (valuesOf name ms).Perm (valuesOf name ms') :=
  (h.filter _).map _

lemma given_replace {β : Type} {reads : Term → β → Prop}
    (h : StringLit.text ⟨key, none⟩ = .ok name → ∀ b, reads v b ↔ reads w b) {o : Option β} :
    Given reads (valuesOf name (ms₁ ++ (key, v) :: ms₂)) o ↔
      Given reads (valuesOf name (ms₁ ++ (key, w) :: ms₂)) o := by
  by_cases hkey : StringLit.text ⟨key, none⟩ = .ok name
  · rw [valuesOf_insert hkey, valuesOf_insert hkey]
    exact Given.replace (h hkey) _ _
  · rw [valuesOf_insert_other hkey, valuesOf_insert_other hkey]

lemma describes_iff : Describes children ms t ↔
    (∀ m ∈ ms, ∃ name, StringLit.text ⟨m.1, none⟩ = .ok name) ∧
      Given ReadsKind (valuesOf "type" ms) (some t.kind) ∧
      (∃ o, Given ReadsText (valuesOf "text" ms) o ∧ o.join = t.text) ∧
      Given ReadsOffset (valuesOf "startOffset" ms) (some t.start) ∧
      Given ReadsOffset (valuesOf "endOffset" ms) (some t.stop) ∧
      ∃ o, Given children (valuesOf "children" ms) o ∧ o.getD [] = t.children :=
  ⟨fun ⟨hdecoded, hkind, htext, hstart, hstop, hchildren⟩ =>
    ⟨hdecoded, hkind, htext, hstart, hstop, hchildren⟩,
   fun ⟨hdecoded, hkind, htext, hstart, hstop, hchildren⟩ =>
    ⟨hdecoded, hkind, htext, hstart, hstop, hchildren⟩⟩

lemma describes_order (h : ms.Perm ms') : Describes children ms t ↔ Describes children ms' t := by
  simp only [describes_iff, Given.perm (valuesOf_perm h), h.mem_iff]

lemma decoded_insert (hkey : StringLit.text ⟨key, none⟩ = .ok name) :
    (∀ m ∈ ms₁ ++ (key, v) :: ms₂, ∃ name, StringLit.text ⟨m.1, none⟩ = .ok name) ↔
      ∀ m ∈ ms₁ ++ ms₂, ∃ name, StringLit.text ⟨m.1, none⟩ = .ok name := by
  simp only [List.forall_mem_append, List.forall_mem_cons, hkey, Except.ok.injEq, exists_eq', true_and]

lemma describes_unknown (hkey : StringLit.text ⟨key, none⟩ = .ok name) (hname : name ∉ fieldNames) :
    Describes children (ms₁ ++ ms₂) t ↔ Describes children (ms₁ ++ (key, v) :: ms₂) t := by
  have hother (field : String) (hfield : field ∈ fieldNames) :
      valuesOf field (ms₁ ++ (key, v) :: ms₂) = valuesOf field (ms₁ ++ ms₂) := by
    apply valuesOf_insert_other
    rw [hkey]
    rintro ⟨⟩
    exact hname hfield
  rw [describes_iff, describes_iff, decoded_insert hkey, hother "type" (by decide), hother "text" (by decide),
    hother "startOffset" (by decide), hother "endOffset" (by decide), hother "children" (by decide)]

lemma describes_noText (hkey : StringLit.text ⟨key, none⟩ = .ok "text")
    (habsent : valuesOf "text" (ms₁ ++ ms₂) = []) :
    Describes children (ms₁ ++ ms₂) t ↔ Describes children (ms₁ ++ (key, .null) :: ms₂) t := by
  have hnone : (∃ o, Given ReadsText [] o ∧ o.join = t.text) ↔
      ∃ o, Given ReadsText [.null] o ∧ o.join = t.text := by
    simp [Option.exists, Given, ReadsText]
  rw [describes_iff, describes_iff, decoded_insert hkey, valuesOf_insert_absent hkey habsent, habsent, hnone,
    valuesOf_insert_other (by simp [hkey]), valuesOf_insert_other (by simp [hkey]),
    valuesOf_insert_other (by simp [hkey]), valuesOf_insert_other (by simp [hkey])]

lemma describes_noChildren (hkey : StringLit.text ⟨key, none⟩ = .ok "children")
    (habsent : valuesOf "children" (ms₁ ++ ms₂) = []) :
    Describes DenotesList (ms₁ ++ ms₂) t ↔ Describes DenotesList (ms₁ ++ (key, .null) :: ms₂) t := by
  have hnone : (∃ o, Given DenotesList [] o ∧ o.getD [] = t.children) ↔
      ∃ o, Given DenotesList [.null] o ∧ o.getD [] = t.children := by
    simp [Option.exists, Given, denotesList_null]
  rw [describes_iff, describes_iff, decoded_insert hkey, valuesOf_insert_absent hkey habsent, habsent, hnone,
    valuesOf_insert_other (by simp [hkey]), valuesOf_insert_other (by simp [hkey]),
    valuesOf_insert_other (by simp [hkey]), valuesOf_insert_other (by simp [hkey])]

lemma describes_replace
    (hkind : StringLit.text ⟨key, none⟩ = .ok "type" → ∀ k, ReadsKind v k ↔ ReadsKind w k)
    (htext : StringLit.text ⟨key, none⟩ = .ok "text" → ∀ o, ReadsText v o ↔ ReadsText w o)
    (hstart : StringLit.text ⟨key, none⟩ = .ok "startOffset" → ∀ n, ReadsOffset v n ↔ ReadsOffset w n)
    (hstop : StringLit.text ⟨key, none⟩ = .ok "endOffset" → ∀ n, ReadsOffset v n ↔ ReadsOffset w n)
    (hchildren : StringLit.text ⟨key, none⟩ = .ok "children" → ∀ ns, children v ns ↔ children w ns) :
    Describes children (ms₁ ++ (key, v) :: ms₂) t ↔ Describes children (ms₁ ++ (key, w) :: ms₂) t := by
  have hdecoded : (∀ m ∈ ms₁ ++ (key, v) :: ms₂, ∃ name, StringLit.text ⟨m.1, none⟩ = .ok name) ↔
      ∀ m ∈ ms₁ ++ (key, w) :: ms₂, ∃ name, StringLit.text ⟨m.1, none⟩ = .ok name := by
    simp only [List.forall_mem_append, List.forall_mem_cons]
  rw [describes_iff, describes_iff, hdecoded]
  simp only [given_replace hkind, given_replace htext, given_replace hstart, given_replace hstop,
    given_replace hchildren]

end

lemma forall₂_replace {x x' : Term} (h : ∀ t, Denotes x t ↔ Denotes x' t) (xs₁ xs₂ : List Term)
    {ns : List Node} :
    List.Forall₂ Denotes (xs₁ ++ x :: xs₂) ns ↔ List.Forall₂ Denotes (xs₁ ++ x' :: xs₂) ns := by
  induction xs₁ generalizing ns with
  | nil => simp only [List.nil_append, List.forall₂_cons_left_iff, h]
  | cons y xs₁ ih => simp only [List.cons_append, List.forall₂_cons_left_iff, ih]

lemma denotesList_replace {x x' : Term} (h : ∀ t, Denotes x t ↔ Denotes x' t) (xs₁ xs₂ : List Term)
    (ns : List Node) :
    DenotesList (.array (xs₁ ++ x :: xs₂)) ns ↔ DenotesList (.array (xs₁ ++ x' :: xs₂)) ns := by
  rw [denotesList_array, denotesList_array]
  exact forall₂_replace h xs₁ xs₂

lemma lists_replace {children : Term → List Node → Prop} {kind text start stop c c' : Term}
    (h : ∀ ns, children c ns ↔ children c' ns) {t : Node} :
    Lists children [kind, text, start, stop, c] t ↔ Lists children [kind, text, start, stop, c'] t := by
  constructor
  · rintro (_ | ⟨hkind, htext, hstart, hstop, hchildren⟩)
    exact .container hkind htext hstart hstop ((h _).mp hchildren)
  · rintro (_ | ⟨hkind, htext, hstart, hstop, hchildren⟩)
    exact .container hkind htext hstart hstop ((h _).mpr hchildren)

lemma readsKind_nameSpace {ps qs : List Piece} {tag : String} (hps : StringLit.text ⟨ps, none⟩ = .ok tag)
    (hqs : StringLit.text ⟨qs, none⟩ = .ok ("AsciiDoc:" ++ tag)) (hbare : ¬Kind.nameSpace <+: tag.toList)
    (k : Kind) : ReadsKind (.string ps) k ↔ ReadsKind (.string qs) k := by
  have hlong : Kind.withoutNameSpace ("AsciiDoc:" ++ tag).toList = tag.toList := by
    have hchars : ("AsciiDoc:" ++ tag).toList = Kind.nameSpace ++ tag.toList := String.toList_append
    rw [hchars, Kind.withoutNameSpace, if_pos (by simp), List.drop_left]
  have hshort : Kind.withoutNameSpace tag.toList = tag.toList := by
    rw [Kind.withoutNameSpace, if_neg (by simpa using hbare)]
  have htag : Kind.ofTag ("AsciiDoc:" ++ tag) = Kind.ofTag tag := by
    rw [Kind.ofTag, Kind.ofTag, hlong, hshort]
  simp [ReadsKind, hps, hqs, htag]

lemma readsOffset_forms {n : Nat} {v w : Term} (hv : Offset.Form n v) (hw : Offset.Form n w) (m : Nat) :
    ReadsOffset v m ↔ ReadsOffset w m :=
  hv.read.trans hw.read.symm

lemma Change.denotes {x x' : Term} (h : Change x x') (t : Node) : Denotes x t ↔ Denotes x' t := by
  induction h generalizing t with
  | order h => rw [denotes_object, denotes_object, describes_order h]
  | unknown hkey hname => rw [denotes_object, denotes_object, describes_unknown hkey hname]
  | nameSpace hkey hps hqs hbare =>
    rw [denotes_object, denotes_object]
    exact describes_replace (fun _ => readsKind_nameSpace hps hqs hbare) (by simp [hkey]) (by simp [hkey])
      (by simp [hkey]) (by simp [hkey])
  | noText hkey habsent => rw [denotes_object, denotes_object, describes_noText hkey habsent]
  | noChildren hkey habsent => rw [denotes_object, denotes_object, describes_noChildren hkey habsent]
  | emptyChildren hkey =>
    rw [denotes_object, denotes_object]
    exact describes_replace (by simp [hkey]) (by simp [hkey]) (by simp [hkey]) (by simp [hkey])
      fun _ ns => by simp [denotesList_null, denotesList_array]
  | offset hkey hname hv hw =>
    have hforms := readsOffset_forms hv hw
    rw [denotes_object, denotes_object]
    rcases hname with rfl | rfl <;>
      exact describes_replace (by simp [hkey]) (by simp [hkey]) (fun _ => hforms) (fun _ => hforms) (by simp [hkey])
  | child hkey h ih =>
    rw [denotes_object, denotes_object]
    exact describes_replace (by simp [hkey]) (by simp [hkey]) (by simp [hkey]) (by simp [hkey])
      fun _ => denotesList_replace ih _ _
  | item h ih =>
    rw [denotes_array, denotes_array]
    exact lists_replace (denotesList_replace ih _ _)

lemma denotes_of_changes {x x' : Term} (h : Relation.EqvGen Change x x') (t : Node) :
    Denotes x t ↔ Denotes x' t := by
  induction h with
  | rel _ _ h => exact h.denotes t
  | refl _ => exact Iff.rfl
  | symm _ _ _ ih => exact ih.symm
  | trans _ _ _ _ _ ih ih' => exact ih.trans ih'

lemma changes_child {ms₁ ms₂ : List (List Piece × Term)} {key : List Piece} {xs₁ xs₂ : List Term} {x x' : Term}
    (hkey : StringLit.text ⟨key, none⟩ = .ok "children") (h : Relation.EqvGen Change x x') :
    Relation.EqvGen Change (.object (ms₁ ++ (key, .array (xs₁ ++ x :: xs₂)) :: ms₂))
      (.object (ms₁ ++ (key, .array (xs₁ ++ x' :: xs₂)) :: ms₂)) := by
  induction h with
  | rel _ _ h => exact .rel _ _ (.child hkey h)
  | refl _ => exact .refl _
  | symm _ _ _ ih => exact .symm _ _ ih
  | trans _ _ _ _ _ ih ih' => exact .trans _ _ _ ih ih'

def leafMembers (type : String) (stop : Term) : List (String × Term) :=
  [("type", .ofString type), ("startOffset", .number (.printed 0)), ("endOffset", stop)]

def remarks : List (String × Term) :=
  [("text", .null), ("note", .single "type" .null)]

def plainText : Term :=
  .ofMembers (leafMembers "TEXT" (.number (.printed 1)))

/-- The same node with a text of null, a member that is skipped, the name space of its type and an offset that is
a string, its members the other way round. -/
def adornedText : Term :=
  .ofMembers (remarks ++ leafMembers "AsciiDoc:TEXT" (.ofString "1.0")).reverse

lemma changes_adornedText : Relation.EqvGen Change plainText adornedText := by
  have hprinted (s : String) : StringLit.text ⟨(StringLit.printed s).pieces, none⟩ = .ok s :=
    StringLit.text_printed s
  have hone : StringLit.text ⟨(StringLit.printed "1.0").pieces, none⟩ = .ok (Decimal.text 1 ++ ".0") :=
    (hprinted "1.0").trans (congrArg _ (by decide +kernel))
  have hnote : Change plainText
      (.ofMembers (("note", .single "type" .null) :: leafMembers "TEXT" (.number (.printed 1)))) :=
    @Change.unknown [] _ _ _ _ (hprinted "note") (by decide)
  have htext : Change (.ofMembers (("note", .single "type" .null) :: leafMembers "TEXT" (.number (.printed 1))))
      (.ofMembers (remarks ++ leafMembers "TEXT" (.number (.printed 1)))) := by
    apply @Change.noText [] _ _ (hprinted "text")
    simp [leafMembers, valuesOf, hprinted]
  have htype : Change (.ofMembers (remarks ++ leafMembers "TEXT" (.number (.printed 1))))
      (.ofMembers (remarks ++ leafMembers "AsciiDoc:TEXT" (.number (.printed 1)))) :=
    @Change.nameSpace [_, _] _ _ _ _ _ (hprinted "type") (hprinted "TEXT") (hprinted "AsciiDoc:TEXT")
      (by decide)
  have hstop : Change (.ofMembers (remarks ++ leafMembers "AsciiDoc:TEXT" (.number (.printed 1))))
      (.ofMembers (remarks ++ leafMembers "AsciiDoc:TEXT" (.ofString "1.0"))) :=
    @Change.offset [_, _, _, _] _ _ _ 1 _ _ (hprinted "endOffset") (.inr rfl) .integer (.point hone)
  have horder : Change (.ofMembers (remarks ++ leafMembers "AsciiDoc:TEXT" (.ofString "1.0"))) adornedText :=
    .order ((List.reverse_perm _).symm.map _)
  exact .trans _ _ _ (.rel _ _ hnote) (.trans _ _ _ (.rel _ _ htext) (.trans _ _ _ (.rel _ _ htype)
    (.trans _ _ _ (.rel _ _ hstop) (.rel _ _ horder))))

def fileOf (x : Term) : Term :=
  .ofMembers [("type", .ofString "FILE"), ("startOffset", .number (.printed 0)),
    ("endOffset", .number (.printed 1)), ("children", .array [x])]

def fileText (node : List Char) : List Char :=
  Printer.object [("type", Printer.string "FILE"), ("startOffset", Decimal.chars 0),
    ("endOffset", Decimal.chars 1), ("children", Printer.array [node])]

def plainDocument : List UInt8 :=
  Utf8.bytes (fileText (Printer.object [("type", Printer.string "TEXT"), ("startOffset", Decimal.chars 0),
    ("endOffset", Decimal.chars 1)]))

def adornedDocument : List UInt8 :=
  Utf8.bytes (fileText (Printer.object [("endOffset", Printer.string "1.0"), ("startOffset", Decimal.chars 0),
    ("type", Printer.string "AsciiDoc:TEXT"), ("note", Printer.object [("type", ['n', 'u', 'l', 'l'])]),
    ("text", ['n', 'u', 'l', 'l'])])) ++ Utf8.bytes ['\n', ' ']

section

open Term

lemma written_fileOf {x : Term} {text : List Char} (h : Token.Written x.tokens text) :
    Token.Written (fileOf x).tokens (fileText text) := by
  apply written_object
  refine .cons ⟨rfl, written_string _⟩ (.cons ⟨rfl, written_natural 0⟩ (.cons ⟨rfl, written_natural 1⟩ ?_))
  exact .cons ⟨rfl, written_array (.cons h .nil)⟩ .nil

lemma spelled_plainDocument : (fileOf plainText).Spelled plainDocument := by
  apply Token.Written.laid
  apply written_fileOf
  apply written_object
  exact .cons ⟨rfl, written_string _⟩ (.cons ⟨rfl, written_natural 0⟩ (.cons ⟨rfl, written_natural 1⟩ .nil))

lemma spelled_adornedDocument : (fileOf adornedText).Spelled adornedDocument := by
  have hblanks : ∀ b ∈ Utf8.bytes ['\n', ' '], Token.isBlank b = true := by decide +kernel
  have hend : Token.Laid [] (Utf8.bytes ['\n', ' ']) := .nil hblanks
  have hfile : Token.Laid ((fileOf adornedText).tokens ++ []) adornedDocument := by
    refine written_fileOf (written_object ?_) _ _ hend
    refine .cons ⟨rfl, written_string _⟩ (.cons ⟨rfl, written_natural 0⟩ (.cons ⟨rfl, written_string _⟩ ?_))
    exact .cons ⟨rfl, written_single _ written_null⟩ (.cons ⟨rfl, written_null⟩ .nil)
  rwa [List.append_nil] at hfile

end

/-- A document stays a document of the same tree under any number of changes, at any depth, as long as it is not
nested too deeply. -/
theorem ofJson_of_changes {x x' : Term} {document document' : List UInt8} (h : x.Spelled document)
    (h' : x'.Spelled document') (hchanges : Relation.EqvGen Change x x')
    (hdepth : readingDepth x' ≤ Document.depth) {t : Node} (hok : ofJson document = .ok t) :
    ofJson document' = .ok t := by
  obtain ⟨-, hdenotes, hvalid⟩ := (ofJson_ok h).mp hok
  exact (ofJson_ok h').mpr ⟨hdepth, (denotes_of_changes hchanges t).mp hdenotes, hvalid⟩

theorem ofJson_of_changes_adorned :
    ofJson plainDocument = .ok ⟨.file, none, 0, 1, [⟨.text, none, 0, 1, []⟩]⟩ ∧
      ofJson adornedDocument = .ok ⟨.file, none, 0, 1, [⟨.text, none, 0, 1, []⟩]⟩ := by
  have hplain : ofJson plainDocument = .ok ⟨.file, none, 0, 1, [⟨.text, none, 0, 1, []⟩]⟩ := by
    decide +kernel
  have hchanges : Relation.EqvGen Change (fileOf plainText) (fileOf adornedText) :=
    @changes_child [_, _, _] _ _ [] _ _ _ (StringLit.text_printed "children") changes_adornedText
  have hdepth : readingDepth (fileOf adornedText) ≤ Document.depth := by decide +kernel
  exact ⟨hplain, ofJson_of_changes spelled_plainDocument spelled_adornedDocument hchanges hdepth hplain⟩

end AdocProse.Node
