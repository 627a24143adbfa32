import AdocProse.Proofs.Json.Printed
import AdocProse.Proofs.Json.Record
import AdocProse.Proofs.Tree.Kind
import AdocProse.Proofs.Tree.Nodes
import AdocProse.Tree.Reader

/-! Reading the JSON document of a tree gives the tree back, or the fault of its spans. -/

namespace AdocProse.Node

open Json

def textMembers : Option String → List (StringLit × Value)
  | none => []
  | some s => [(.printed "text", .string (.printed s))]

def childrenMembers : List Value → List (StringLit × Value)
  | [] => []
  | v :: vs => [(.printed "children", .array (v :: vs) none)]

/-- The members that the JSON document of a node is read as, the children's values being given. -/
def valueMembers (kind : Kind) (text : Option String) (start stop : Nat) (children : List Value) :
    List (StringLit × Value) :=
  (.printed "type", .string (.printed kind.tag)) :: (textMembers text ++
    (.printed "startOffset", .number (.printed start)) ::
    (.printed "endOffset", .number (.printed stop)) :: childrenMembers children)

mutual

def value : Node → Value
  | ⟨kind, text, start, stop, children⟩ =>
    .object (valueMembers kind text start stop (values children)) none

def values : List Node → List Value
  | [] => []
  | n :: ns => value n :: values ns

end

lemma reads_members (kind : Kind) (text : Option String) (start stop : Nat)
    {items : List (List Char)} {vs : List Value} (h : List.Forall₂ Reads items vs) :
    List.Forall₂ ReadsMember (jsonMembers kind text start stop items)
      (valueMembers kind text start stop vs) := by
  have hkind : ReadsMember ("type", Printer.string kind.tag)
      (.printed "type", .string (.printed kind.tag)) := ⟨rfl, .string kind.tag⟩
  have hstart : ReadsMember ("startOffset", Decimal.chars start)
      (.printed "startOffset", .number (.printed start)) := ⟨rfl, .natural start⟩
  have hstop : ReadsMember ("endOffset", Decimal.chars stop)
      (.printed "endOffset", .number (.printed stop)) := ⟨rfl, .natural stop⟩
  cases h with
  | nil =>
    cases text with
    | none => exact .cons hkind (.cons hstart (.cons hstop .nil))
    | some s => exact .cons hkind (.cons ⟨rfl, .string s⟩ (.cons hstart (.cons hstop .nil)))
  | @cons item v items vs hitem hitems =>
    have hchildren : ReadsMember ("children", Printer.array (item :: items))
        (.printed "children", .array (v :: vs) none) := ⟨rfl, .array (.cons hitem hitems)⟩
    cases text with
    | none => exact .cons hkind (.cons hstart (.cons hstop (.cons hchildren .nil)))
    | some s =>
      exact .cons hkind (.cons ⟨rfl, .string s⟩ (.cons hstart (.cons hstop (.cons hchildren .nil))))

lemma reads_items {ns : List Node} (h : ∀ n ∈ ns, Reads n.jsonChars n.value) :
    List.Forall₂ Reads (jsonItems ns) (values ns) := by
  induction ns with
  | nil => exact .nil
  | cons n ns ih => exact .cons (h n (by simp)) (ih fun n hn => h n (List.mem_cons_of_mem _ hn))

lemma reads_json (n : Node) : Reads n.jsonChars n.value := by
  induction n using Node.induct with
  | mk kind text start stop children ih =>
    rw [jsonChars, value]
    exact .object (reads_members kind text start stop (reads_items ih))

section

variable {room : Nat} (s : Slots)

lemma member_kind (hs : s.kind.isSome = false) (k : Kind) (nodes : Reading (List Node)) :
    record.member s (.printed "type", ⟨.string (.printed k.tag), nodes⟩) room =
      .ok { s with kind := some k } := by
  have hk : readKind (.string (.printed k.tag)) room = .ok k := by
    rw [readKind, Reading.bind_ok (Reading.string_printed k.tag)]
    simp only [Kind.ofTag_tag]
    rfl
  exact Record.member_ok (f := record.fields[0]) rfl hs (Reading.bind_ok hk _)

lemma member_text (hs : s.text.isSome = false) (t : String) (nodes : Reading (List Node)) :
    record.member s (.printed "text", ⟨.string (.printed t), nodes⟩) room =
      .ok { s with text := some (some t) } := by
  have ht : readText (.string (.printed t)) room = .ok (some t) := by
    change (some <$> StringLit.text _) = _
    rw [StringLit.text_printed]
    rfl
  exact Record.member_ok (f := record.fields[1]) rfl hs (Reading.bind_ok ht _)

lemma offset_printed {n : Nat} (h : n < Offset.limit) :
    Offset.ofValue (.number (.printed n)) room = .ok n := by
  change (do Offset.ofNumber (← (Numeral.printed n).toNumber)) = _
  rw [Numeral.toNumber_printed h]
  rfl

lemma member_start (hs : s.start.isSome = false) {n : Nat} (h : n < Offset.limit)
    (nodes : Reading (List Node)) :
    record.member s (.printed "startOffset", ⟨.number (.printed n), nodes⟩) room =
      .ok { s with start := some n } :=
  Record.member_ok (f := record.fields[2]) rfl hs (Reading.bind_ok (offset_printed h) _)

lemma member_stop (hs : s.stop.isSome = false) {n : Nat} (h : n < Offset.limit)
    (nodes : Reading (List Node)) :
    record.member s (.printed "endOffset", ⟨.number (.printed n), nodes⟩) room =
      .ok { s with stop := some n } :=
  Record.member_ok (f := record.fields[3]) rfl hs (Reading.bind_ok (offset_printed h) _)

lemma member_children (hs : s.children.isSome = false) {v : Value} {ns : List Node}
    {nodes : Reading (List Node)} (h : nodes room = .ok ns) :
    record.member s (.printed "children", ⟨v, nodes⟩) room =
      .ok { s with children := some ns } :=
  Record.member_ok (f := record.fields[4]) rfl hs (Reading.bind_ok h _)

end

lemma memberParts_append (ms ms' : List (StringLit × Value)) :
    memberParts (ms ++ ms') = memberParts ms ++ memberParts ms' := by
  induction ms with
  | nil => rfl
  | cons m ms ih => rw [List.cons_append, memberParts, ih, memberParts, List.cons_append]

def Fits (n : Node) : Prop :=
  ∀ m ∈ n.nodes, m.start < Offset.limit ∧ m.stop < Offset.limit

instance (n : Node) : Decidable n.Fits :=
  inferInstanceAs (Decidable (∀ m ∈ n.nodes, m.start < Offset.limit ∧ m.stop < Offset.limit))

lemma nesting_of_child {ns : List Node} {n : Node} (h : n ∈ ns) :
    1 + n.nesting ≤ nestingOfList ns := by
  induction ns with
  | nil => cases h
  | cons m ns ih =>
    rw [nestingOfList]
    rcases List.mem_cons.mp h with rfl | hn
    · exact Nat.le_max_left _ _
    · exact Nat.le_trans (ih hn) (Nat.le_max_right _ _)

lemma values_read {ns : List Node} {room : Nat} (h : ∀ n ∈ ns, ofValue n.value room = .ok n) :
    List.Forall₂ (fun r n => r room = .ok n) (readings (values ns)) ns := by
  induction ns with
  | nil => exact .nil
  | cons n ns ih => exact .cons (h n (by simp)) (ih fun n hn => h n (List.mem_cons_of_mem _ hn))

lemma list_read {ns : List Node} {room : Nat} (hne : ns ≠ []) (hroom : nestingOfList ns ≤ room)
    (h : ∀ n ∈ ns, ∀ room, n.nesting ≤ room → ofValue n.value room = .ok n) :
    listOfValue (.array (values ns) none) room = .ok ns := by
  obtain ⟨n, ns', rfl⟩ := List.exists_cons_of_ne_nil hne
  have hfirst := nesting_of_child (n := n) (List.mem_cons_self (l := ns'))
  cases room with
  | zero => omega
  | succ room =>
    rw [listOfValue, Reading.inside]
    apply Reading.sequence_ok
    apply values_read
    intro m hm
    have hm' := nesting_of_child hm
    exact h m hm room (by omega)

/-- What the members of a printed node leave in the slots. -/
def slots (kind : Kind) (text : Option String) (start stop : Nat) (children : List Node) : Slots :=
  ⟨some kind, text.map some, some start, some stop, if children = [] then none else some children⟩

lemma finish_slots (kind : Kind) (text : Option String) (start stop : Nat) (children : List Node) :
    record.finish (slots kind text start stop children) =
      .ok ⟨kind, text, start, stop, children⟩ := by
  cases text <;> cases children <;> rfl

lemma members_read (kind : Kind) (text : Option String) {start stop room : Nat}
    {children : List Node} (hstart : start < Offset.limit) (hstop : stop < Offset.limit)
    (hlist : children ≠ [] → listOfValue (.array (values children) none) room = .ok children) :
    record.members record.empty
        (memberParts (valueMembers kind text start stop (values children))) room =
      .ok (slots kind text start stop children) := by
  let offsets (ms : List (StringLit × Value)) : List (StringLit × Value) :=
    (.printed "startOffset", .number (.printed start)) ::
      (.printed "endOffset", .number (.printed stop)) :: ms
  let ms := childrenMembers (values children)
  calc record.members {} (memberParts (_ :: (textMembers text ++ offsets ms))) room
    _ = record.members { kind := some kind } (memberParts (textMembers text ++ offsets ms)) room :=
      Record.members_cons (member_kind _ rfl kind _)
    _ = record.members { kind := some kind, text := text.map some } (memberParts (offsets ms)) room := by
      rw [memberParts_append]
      cases text with
      | none => rfl
      | some s => exact Record.members_cons (member_text _ rfl s _)
    _ = record.members ⟨some kind, text.map some, some start, none, none⟩ _ room :=
      Record.members_cons (member_start _ rfl hstart _)
    _ = record.members ⟨some kind, text.map some, some start, some stop, none⟩ (memberParts ms) room :=
      Record.members_cons (member_stop _ rfl hstop _)
    _ = .ok (slots kind text start stop children) := by
      cases children with
      | nil => rfl
      | cons n ns => exact Record.members_cons (member_children _ rfl (hlist (by simp)))

lemma value_read (n : Node) (hfits : n.Fits) {room : Nat} (hroom : n.nesting ≤ room) :
    ofValue n.value room = .ok n := by
  induction n using Node.induct generalizing room with
  | mk kind text start stop children ih =>
    obtain ⟨hstart, hstop⟩ := hfits _ (self_mem_nodes _)
    rw [nesting] at hroom
    cases room with
    | zero => omega
    | succ room =>
      have hchildren : ∀ c ∈ children, ∀ room, c.nesting ≤ room → ofValue c.value room = .ok c :=
        fun c hc room hr => ih c hc (fun m hm => hfits m (nodes_of_child hc hm)) hr
      rw [value, ofValue, Reading.inside]
      have hlist : children ≠ [] →
          listOfValue (.array (values children) none) room = .ok children :=
        fun hne => list_read hne (by omega) hchildren
      exact Record.ofMembers_ok (members_read kind text hstart hstop hlist)
        (finish_slots kind text start stop children)

lemma read_toJson {n : Node} (hfits : n.Fits) (hnesting : n.nesting ≤ Document.depth) :
    (Document.ofBytes (Utf8.encode n.toJson)).read ofValue = .ok n := by
  have hdoc : Document.ofBytes (Utf8.encode n.toJson) = ⟨n.value, false⟩ := by
    rw [toJson, Utf8.encode_ofList, (reads_json n).document]
  rw [hdoc, Document.read, value_read n hfits hnesting]
  rfl

lemma ofJson_valid {n : Node} (hfits : n.Fits) (hnesting : n.nesting ≤ Document.depth)
    (hvalid : n.validate = .ok ()) : ofJson (Utf8.encode n.toJson) = .ok n := by
  simp only [ofJson, read_toJson hfits hnesting, hvalid]

lemma ofJson_invalid {n : Node} (hfits : n.Fits) (hnesting : n.nesting ≤ Document.depth)
    {e : InvalidSpan} (hinvalid : n.validate = .error e) :
    ofJson (Utf8.encode n.toJson) = .error (.invalidSpan e) := by
  simp only [ofJson, read_toJson hfits hnesting, hinvalid]

/-- A tree of 64-bit offsets whose document opens fewer than 128 brackets at once is read back from
that document if its spans are valid, and else refused with the fault of its spans. -/
theorem ofJson_printed (n : Node) (hfits : n.Fits) (hnesting : n.nesting < 128) :
    (n.validate = .ok () → ofJson (Utf8.encode n.toJson) = .ok n) ∧
      ∀ e, n.validate = .error e → ofJson (Utf8.encode n.toJson) = .error (.invalidSpan e) := by
  have hdepth : n.nesting ≤ Document.depth := Nat.le_of_lt_succ hnesting
  exact ⟨ofJson_valid hfits hdepth, fun _ => ofJson_invalid hfits hdepth⟩

def edgeTree (start : Nat) : Node :=
  ⟨.file, some "\x00\"\\é", 0, 0xFFFFFFFFFFFFFFFF, [⟨.text, some "", start, 7, []⟩, ⟨.ref, none, 7, 7, []⟩]⟩

theorem ofJson_printed_edgeTree :
    ((edgeTree 7).Fits ∧ (edgeTree 7).nesting < 128 ∧ (edgeTree 7).validate = .ok () ∧
      ofJson (Utf8.encode (edgeTree 7).toJson) = .ok (edgeTree 7)) ∧
    ((edgeTree 9).Fits ∧ (edgeTree 9).nesting < 128 ∧
      (edgeTree 9).validate = .error ⟨.text, 9, 7, .inverted⟩ ∧
      ofJson (Utf8.encode (edgeTree 9).toJson) = .error (.invalidSpan ⟨.text, 9, 7, .inverted⟩)) := by
  have hfits : ∀ start < 10, (edgeTree start).Fits := by decide
  have hvalid : (edgeTree 7).validate = .ok () := by rfl
  have hinvalid : (edgeTree 9).validate = .error ⟨.text, 9, 7, .inverted⟩ := by rfl
  exact ⟨⟨hfits 7 (by decide), by decide, hvalid,
      (ofJson_printed (edgeTree 7) (hfits 7 (by decide)) (by decide)).1 hvalid⟩,
    ⟨hfits 9 (by decide), by decide, hinvalid,
      (ofJson_printed (edgeTree 9) (hfits 9 (by decide)) (by decide)).2 _ hinvalid⟩⟩

end AdocProse.Node
