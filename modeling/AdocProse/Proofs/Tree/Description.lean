import AdocProse.Proofs.Json.Members
import AdocProse.Proofs.Json.Parsing
import AdocProse.Tree.Reader

/-! Which nodes are read from the terms of a document. The members of a node may stand in any order, and
those that have none of its names are skipped whatever they are. How many containers may be open decides
only whether a document is read at all, not which node it is read as. -/

namespace AdocProse.Node

open Json

lemma memberParts_eq (ms : List (StringLit × Value)) :
    memberParts ms = ms.map fun m => (m.1, ⟨m.2, listOfValue m.2⟩) := by
  induction ms with
  | nil => rfl
  | cons m ms ih => rw [memberParts, ih, List.map_cons]

lemma itemParts_eq (vs : List Value) : itemParts vs = vs.map fun v => ⟨v, listOfValue v⟩ := by
  induction vs with
  | nil => rfl
  | cons v vs ih => rw [itemParts, ih, List.map_cons]

lemma readings_eq (vs : List Value) : readings vs = vs.map ofValue := by
  induction vs with
  | nil => rfl
  | cons v vs ih => rw [readings, ih, List.map_cons]

lemma mem_fields {f : Field Part Slots} : f ∈ record.fields ↔ f = record.fields[0] ∨ f = record.fields[1] ∨
    f = record.fields[2] ∨ f = record.fields[3] ∨ f = record.fields[4] := by
  simp [record]

lemma separate : record.Separate where
  names := by decide
  writes := by
    intro f hf a room s s' h
    rcases mem_fields.mp hf with rfl | rfl | rfl | rfl | rfl
    on_goal 1 =>
      refine Field.writes_put (u := fun x s => { s with kind := some x }) (fun _ _ => rfl) (fun _ _ => rfl) ?_ h
    on_goal 2 =>
      refine Field.writes_put (u := fun x s => { s with text := some x }) (fun _ _ => rfl) (fun _ _ => rfl) ?_ h
    on_goal 3 =>
      refine Field.writes_put (u := fun x s => { s with start := some x }) (fun _ _ => rfl) (fun _ _ => rfl) ?_ h
    on_goal 4 =>
      refine Field.writes_put (u := fun x s => { s with stop := some x }) (fun _ _ => rfl) (fun _ _ => rfl) ?_ h
    on_goal 5 =>
      refine Field.writes_put (u := fun x s => { s with children := some x }) (fun _ _ => rfl) (fun _ _ => rfl) ?_ h
    -- A field notices no other slot than its own.
    all_goals
      intro g hg hne x
      rcases mem_fields.mp hg with rfl | rfl | rfl | rfl | rfl
      all_goals first
        | exact absurd rfl hne
        | exact ⟨fun _ => rfl, fun _ _ _ => Reading.map_return fun _ => rfl⟩

def valuesOf (name : String) (ms : List (List Piece × Term)) : List Term :=
  (ms.filter fun m => StringLit.text ⟨m.1, none⟩ = .ok name).map (·.2)

def ReadsKind (v : Term) (k : Kind) : Prop :=
  ∃ ps tag, v = .string ps ∧ StringLit.text ⟨ps, none⟩ = .ok tag ∧ Kind.ofTag tag = .ok k

def ReadsText (v : Term) (t : Option String) : Prop :=
  (v = .null ∧ t = none) ∨ ∃ ps s, v = .string ps ∧ StringLit.text ⟨ps, none⟩ = .ok s ∧ t = some s

def ReadsOffset (v : Term) (n : Nat) : Prop :=
  Offset.ofValue v.value 0 = .ok n

/-- The node that the members of an object describe, `children` telling which nodes a value lists. -/
structure Describes (children : Term → List Node → Prop) (ms : List (List Piece × Term)) (t : Node) :
    Prop where
  decoded : ∀ m ∈ ms, ∃ name, StringLit.text ⟨m.1, none⟩ = .ok name
  kind : Given ReadsKind (valuesOf "type" ms) (some t.kind)
  text : ∃ o, Given ReadsText (valuesOf "text" ms) o ∧ o.join = t.text
  start : Given ReadsOffset (valuesOf "startOffset" ms) (some t.start)
  stop : Given ReadsOffset (valuesOf "endOffset" ms) (some t.stop)
  children : ∃ o, Given children (valuesOf "children" ms) o ∧ o.getD [] = t.children

/-- The node that the items of an array describe, one for each field. -/
inductive Lists (children : Term → List Node → Prop) : List Term → Node → Prop
  | leaf {k x st sp kind text start stop} (hk : ReadsKind k kind) (hx : ReadsText x text)
    (hst : ReadsOffset st start) (hsp : ReadsOffset sp stop) :
    Lists children [k, x, st, sp] ⟨kind, text, start, stop, []⟩
  | container {k x st sp c kind text start stop ns} (hk : ReadsKind k kind) (hx : ReadsText x text)
    (hst : ReadsOffset st start) (hsp : ReadsOffset sp stop) (hc : children c ns) :
    Lists children [k, x, st, sp, c] ⟨kind, text, start, stop, ns⟩

section

variable {room : Nat} {v : Term} {t : Node}

lemma string_ok {s : String} : Reading.string v.value room = .ok s ↔
    ∃ ps, v = .string ps ∧ StringLit.text ⟨ps, none⟩ = .ok s := by
  cases v with
  | string ps => simp [Term.value, Reading.string]
  | null | bool | number | array | object => simp [Term.value, Reading.string, Reading.mismatch_ne_ok]

lemma readKind_ok {k : Kind} : readKind v.value room = .ok k ↔ ReadsKind v k := by
  rw [readKind, Reading.bind_eq_ok]
  simp only [string_ok, ReadsKind]
  constructor
  · rintro ⟨tag, ⟨ps, rfl, htag⟩, hk⟩
    refine ⟨ps, tag, rfl, htag, ?_⟩
    cases hkind : Kind.ofTag tag with
    | error u =>
      rw [hkind] at hk
      cases hk
    | ok k' =>
      rw [hkind] at hk
      cases hk
      rfl
  · rintro ⟨ps, tag, rfl, htag, hk⟩
    exact ⟨tag, ⟨ps, rfl, htag⟩, by simp only [hk]; rfl⟩

lemma readText_ok {o : Option String} : readText v.value room = .ok o ↔ ReadsText v o := by
  by_cases hnull : v = .null
  · subst hnull
    simp [Term.value, readText, ReadsText, pure, ReaderT.pure, Except.pure, eq_comm]
  · have hread : readText v.value = some <$> Reading.string v.value := by
      cases v with
      | null => exact absurd rfl hnull
      | bool | number | string | array | object => rfl
    rw [hread, Reading.map_eq_ok]
    simp only [string_ok, ReadsText, hnull, false_and, false_or]
    constructor
    · rintro ⟨s, ⟨ps, hv, hs⟩, ho⟩
      exact ⟨ps, s, hv, hs, ho⟩
    · rintro ⟨ps, s, hv, hs, ho⟩
      exact ⟨s, ⟨ps, hv, hs⟩, ho⟩

lemma offset_ok {n : Nat} : Offset.ofValue v.value room = .ok n ↔ ReadsOffset v n := by
  cases v with
  | number | string => rfl
  | null | bool => simp [Term.value, Offset.ofValue, ReadsOffset, Reading.mismatch_ne_ok]
  | array | object =>
    have hnone (w : Value) (r : Nat) :
        (Reading.inside (Reading.mismatch w Offset.expected) : Reading Nat) r ≠ .ok n := by
      rw [Ne, Reading.inside_eq_ok]
      rintro ⟨r', -, h⟩
      exact Reading.mismatch_ne_ok w _ n h
    simp [Term.value, Offset.ofValue, ReadsOffset, hnone]

end

section

variable {room : Nat} {t : Node}

def part (v : Term) : Part :=
  ⟨v.value, listOfValue v.value⟩

lemma finish_ok {s : Slots} : record.finish s = .ok t ↔ s.kind = some t.kind ∧ s.text.join = t.text ∧
    s.start = some t.start ∧ s.stop = some t.stop ∧ s.children.getD [] = t.children := by
  obtain ⟨kind, text, start, stop, children⟩ := t
  cases hkind : s.kind <;> cases hstart : s.start <;> cases hstop : s.stop <;>
    simp [record, Record.required, hkind, hstart, hstop, bind, Except.bind, pure, Except.pure]

open Record.Gathers (cons_iff finished)

lemma members_given {ms : List (StringLit × Part)} {s : Slots} :
    Record.Gathers ms room record.fields record.empty s ↔
      Given (fun p k => readKind p.value room = .ok k) (named "type" ms) s.kind ∧
      Given (fun p x => readText p.value room = .ok x) (named "text" ms) s.text ∧
      Given (fun p n => Offset.ofValue p.value room = .ok n) (named "startOffset" ms) s.start ∧
      Given (fun p n => Offset.ofValue p.value room = .ok n) (named "endOffset" ms) s.stop ∧
      Given (fun p ns => p.nodes room = .ok ns) (named "children" ms) s.children := by
  trans ∃ kind, Given (fun p k => readKind p.value room = .ok k) (named "type" ms) kind ∧
      ∃ text, Given (fun p x => readText p.value room = .ok x) (named "text" ms) text ∧
      ∃ start, Given (fun p n => Offset.ofValue p.value room = .ok n) (named "startOffset" ms) start ∧
      ∃ stop, Given (fun p n => Offset.ofValue p.value room = .ok n) (named "endOffset" ms) stop ∧
      ∃ children, Given (fun p ns => p.nodes room = .ok ns) (named "children" ms) children ∧
        s = { kind, text, start, stop, children }
  · apply (cons_iff (u := fun o s => { s with kind := o }) (fun _ _ => rfl) rfl rfl).trans
    refine exists_congr fun kind => and_congr Iff.rfl ?_
    apply (cons_iff (u := fun o s => { s with text := o }) (fun _ _ => rfl) rfl rfl).trans
    refine exists_congr fun text => and_congr Iff.rfl ?_
    apply (cons_iff (u := fun o s => { s with start := o }) (fun _ _ => rfl) rfl rfl).trans
    refine exists_congr fun start => and_congr Iff.rfl ?_
    apply (cons_iff (u := fun o s => { s with stop := o }) (fun _ _ => rfl) rfl rfl).trans
    refine exists_congr fun stop => and_congr Iff.rfl ?_
    apply (cons_iff (u := fun o s => { s with children := o }) (fun _ _ => rfl) rfl rfl).trans
    exact exists_congr fun children => and_congr Iff.rfl finished
  · constructor
    · rintro ⟨kind, hkind, text, htext, start, hstart, stop, hstop, children, hchildren, rfl⟩
      exact ⟨hkind, htext, hstart, hstop, hchildren⟩
    · rintro ⟨hkind, htext, hstart, hstop, hchildren⟩
      exact ⟨_, hkind, _, htext, _, hstart, _, hstop, _, hchildren, rfl⟩

lemma object_ok {ms : List (List Piece × Term)} : ofValue (Term.object ms).value room = .ok t ↔
    ∃ r, room = r + 1 ∧ Describes (fun v ns => listOfValue v.value r = .ok ns) ms t := by
  rw [Term.value, ofValue, Reading.inside_eq_ok, memberParts_eq, Term.memberValues_eq, List.map_map]
  refine exists_congr fun r => and_congr Iff.rfl ?_
  have hnamed (name : String) : named name
      (ms.map ((fun m => (m.1, ⟨m.2, listOfValue m.2⟩)) ∘ fun m => (⟨m.1, none⟩, m.2.value))) =
        (valuesOf name ms).map part := by
    simp [named, valuesOf, List.filter_map, Function.comp_def, part]
  simp only [Record.ofMembers_eq_ok, Record.members_ok separate, members_given, hnamed, Given.map, finish_ok,
    part, readKind_ok, readText_ok, offset_ok]
  constructor
  · rintro ⟨s, ⟨hdecoded, hkind, htext, hstart, hstop, hchildren⟩, rkind, rtext, rstart, rstop, rchildren⟩
    refine ⟨?_, rkind ▸ hkind, ⟨_, htext, rtext⟩, rstart ▸ hstart, rstop ▸ hstop, ⟨_, hchildren, rchildren⟩⟩
    intro m hm
    obtain ⟨name, hname, -⟩ := hdecoded _ (List.mem_map_of_mem hm)
    exact ⟨name, hname⟩
  · rintro ⟨hdecoded, hkind, ⟨text, htext, rtext⟩, hstart, hstop, ⟨children, hchildren, rchildren⟩⟩
    refine ⟨⟨some t.kind, text, some t.start, some t.stop, children⟩,
      ⟨?_, hkind, htext, hstart, hstop, hchildren⟩, rfl, rtext, rfl, rfl, rchildren⟩
    intro p hp
    obtain ⟨m, hm, rfl⟩ := List.mem_map.mp hp
    obtain ⟨name, hname⟩ := hdecoded m hm
    exact ⟨name, hname, fun _ => m.2.skipFault_value⟩

lemma leaf_items {k x st sp : Term} {s : Slots} :
    record.items none 0 record.fields record.empty [part k, part x, part st, part sp] room = .ok s ↔
      ∃ kind, ReadsKind k kind ∧ ∃ text, ReadsText x text ∧ ∃ start, ReadsOffset st start ∧
        ∃ stop, ReadsOffset sp stop ∧ s = ⟨some kind, some text, some start, some stop, none⟩ := by
  simp [record, part, Record.items_present, Record.items_absent, Record.items_done, Reading.map_eq_ok,
    readKind_ok, readText_ok, offset_ok]

lemma container_items {k x st sp c : Term} {s : Slots} :
    record.items none 0 record.fields record.empty [part k, part x, part st, part sp, part c] room = .ok s ↔
      ∃ kind, ReadsKind k kind ∧ ∃ text, ReadsText x text ∧ ∃ start, ReadsOffset st start ∧
        ∃ stop, ReadsOffset sp stop ∧ ∃ ns, listOfValue c.value room = .ok ns ∧
          s = ⟨some kind, some text, some start, some stop, some ns⟩ := by
  simp [record, part, Record.items_present, Record.items_done, Reading.map_eq_ok, readKind_ok, readText_ok,
    offset_ok]

lemma array_ok {xs : List Term} : ofValue (Term.array xs).value room = .ok t ↔
    ∃ r, room = r + 1 ∧ Lists (fun v ns => listOfValue v.value r = .ok ns) xs t := by
  rw [Term.value, ofValue, Reading.inside_eq_ok, itemParts_eq, Term.values_eq, List.map_map]
  change (∃ r, room = r + 1 ∧ record.ofItems (xs.map part) none r = .ok t) ↔ _
  refine exists_congr fun r => and_congr Iff.rfl ?_
  rw [Record.ofItems_eq_ok]
  constructor
  · rintro ⟨s, hitems, hfinish⟩
    rcases xs with _ | ⟨k, _ | ⟨x, _ | ⟨st, _ | ⟨sp, _ | ⟨c, _ | ⟨e, xs⟩⟩⟩⟩⟩⟩
    case cons.cons.cons.cons.nil =>
      obtain ⟨_, hkind, _, htext, _, hstart, _, hstop, rfl⟩ := leaf_items.mp hitems
      cases hfinish
      exact .leaf hkind htext hstart hstop
    case cons.cons.cons.cons.cons.nil =>
      obtain ⟨_, hkind, _, htext, _, hstart, _, hstop, _, hchildren, rfl⟩ := container_items.mp hitems
      cases hfinish
      exact .container hkind htext hstart hstop hchildren
    -- Too few items, or too many.
    all_goals simp [record, Record.items_present, Record.items_absent, Record.items_done] at hitems
  · rintro (⟨hkind, htext, hstart, hstop⟩ | ⟨hkind, htext, hstart, hstop, hchildren⟩)
    · exact ⟨_, leaf_items.mpr ⟨_, hkind, _, htext, _, hstart, _, hstop, rfl⟩, rfl⟩
    · exact ⟨_, container_items.mpr ⟨_, hkind, _, htext, _, hstart, _, hstop, _, hchildren, rfl⟩, rfl⟩

lemma list_ok {v : Term} {ns : List Node} : listOfValue v.value room = .ok ns ↔ (v = .null ∧ ns = []) ∨
    ∃ xs, v = .array xs ∧ ∃ r, room = r + 1 ∧ List.Forall₂ (fun x n => ofValue x.value r = .ok n) xs ns := by
  cases v with
  | null => simp [Term.value, listOfValue, pure, ReaderT.pure, Except.pure, eq_comm]
  | bool | number | string | object => simp [Term.value, listOfValue, Reading.mismatch_ne_ok]
  | array xs =>
    simp [Term.value, listOfValue, Reading.inside_eq_ok, Reading.sequence_eq_ok, readings_eq, Term.values_eq]

end

lemma Describes.imp {children children' : Term → List Node → Prop} {ms : List (List Piece × Term)} {t : Node}
    (h : Describes children ms t)
    (himp : ∀ v ∈ valuesOf "children" ms, ∀ ns, children v ns → children' v ns) : Describes children' ms t := by
  obtain ⟨o, ho, hchildren⟩ := h.children
  exact { h with children := ⟨o, ho.imp himp, hchildren⟩ }

lemma Describes.children_read {children : Term → List Node → Prop} {ms : List (List Piece × Term)} {t : Node}
    (h : Describes children ms t) {v : Term} (hv : v ∈ valuesOf "children" ms) : ∃ ns, children v ns := by
  obtain ⟨_ | ns, ho, -⟩ := h.children
  · rw [ho] at hv
    cases hv
  · obtain ⟨w, hw, hns⟩ := ho
    obtain rfl := List.mem_singleton.mp (hw ▸ hv)
    exact ⟨ns, hns⟩

lemma Lists.imp {children children' : Term → List Node → Prop} {xs : List Term} {t : Node}
    (h : Lists children xs t) (himp : ∀ v ∈ xs, ∀ ns, children v ns → children' v ns) : Lists children' xs t := by
  rcases h with ⟨hkind, htext, hstart, hstop⟩ | ⟨hkind, htext, hstart, hstop, hchildren⟩
  · exact .leaf hkind htext hstart hstop
  · exact .container hkind htext hstart hstop (himp _ (by simp) _ hchildren)

mutual

/-- How many containers are open at once while a term is read. Nothing is counted where members are
skipped. -/
def readingDepth : Term → Nat
  | .array xs => itemsDepth xs + 1
  | .object ms => membersDepth ms + 1
  | _ => 0

def itemsDepth : List Term → Nat
  | [] => 0
  | x :: xs => max (readingDepth x) (itemsDepth xs)

def membersDepth : List (List Piece × Term) → Nat
  | [] => 0
  | (key, x) :: ms =>
    max (if StringLit.text ⟨key, none⟩ = .ok "children" then readingDepth x else 0) (membersDepth ms)

end

lemma itemsDepth_le {xs : List Term} {n : Nat} : itemsDepth xs ≤ n ↔ ∀ x ∈ xs, readingDepth x ≤ n := by
  induction xs with
  | nil => simp [itemsDepth]
  | cons x xs ih => simp only [itemsDepth, Nat.max_le, ih, List.forall_mem_cons]

lemma membersDepth_le {ms : List (List Piece × Term)} {n : Nat} :
    membersDepth ms ≤ n ↔ ∀ v ∈ valuesOf "children" ms, readingDepth v ≤ n := by
  induction ms with
  | nil => simp [membersDepth, valuesOf]
  | cons m ms ih =>
    obtain ⟨key, x⟩ := m
    by_cases h : StringLit.text ⟨key, none⟩ = .ok "children"
    · have hvalues : valuesOf "children" ((key, x) :: ms) = x :: valuesOf "children" ms := by
        simp [valuesOf, h]
      rw [membersDepth, if_pos h, Nat.max_le, ih, hvalues, List.forall_mem_cons]
    · have hvalues : valuesOf "children" ((key, x) :: ms) = valuesOf "children" ms := by
        simp [valuesOf, h]
      rw [membersDepth, if_neg h, Nat.zero_max, ih, hvalues]

section

variable {v : Term} {room : Nat}

lemma readingDepth_of_readsKind {k : Kind} (h : ReadsKind v k) : readingDepth v = 0 := by
  obtain ⟨ps, tag, rfl, -⟩ := h
  rfl

lemma readingDepth_of_readsText {x : Option String} (h : ReadsText v x) : readingDepth v = 0 := by
  rcases h with ⟨rfl, -⟩ | ⟨ps, s, rfl, -⟩ <;> rfl

lemma readingDepth_of_readsOffset {n : Nat} (h : ReadsOffset v n) : readingDepth v = 0 := by
  cases v with
  | array | object => cases h
  | null | bool | number | string => rfl

def Denotes (x : Term) (t : Node) : Prop :=
  ∃ room, ofValue x.value room = .ok t

def DenotesList (x : Term) (ns : List Node) : Prop :=
  ∃ room, listOfValue x.value room = .ok ns

/-- The term is read where there is room for its depth, and there it is always read as the same. -/
def Settled (x : Term) : Prop :=
  (∀ room t, ofValue x.value room = .ok t ↔ readingDepth x ≤ room ∧ Denotes x t) ∧
    ∀ room ns, listOfValue x.value room = .ok ns ↔ readingDepth x ≤ room ∧ DenotesList x ns

lemma settled_object {ms : List (List Piece × Term)} (ih : ∀ m ∈ ms, Settled m.2) : Settled (.object ms) := by
  have hvalues {v : Term} (hv : v ∈ valuesOf "children" ms) : Settled v := by
    obtain ⟨m, hm, rfl⟩ := List.mem_map.mp hv
    exact ih m (List.mem_filter.mp hm).1
  have hlist (room ns) : listOfValue (Term.object ms).value room ≠ .ok ns := by
    simp [list_ok]
  -- What is skipped takes no room, so only the values of the children count.
  refine ⟨fun room t => ⟨fun h => ⟨?_, room, h⟩, ?_⟩, fun room ns => by simp [DenotesList, hlist]⟩
  · obtain ⟨r, rfl, hms⟩ := object_ok.mp h
    apply Nat.succ_le_succ
    apply membersDepth_le.mpr
    intro v hv
    obtain ⟨ns, hns⟩ := hms.children_read hv
    exact (((hvalues hv).2 r ns).mp hns).1
  · rintro ⟨hdepth, room', h⟩
    obtain ⟨r', rfl, hms⟩ := object_ok.mp h
    obtain ⟨r, rfl⟩ := Nat.exists_eq_add_one_of_ne_zero (Nat.ne_zero_of_lt hdepth)
    have hroom := membersDepth_le.mp (Nat.le_of_succ_le_succ hdepth)
    apply object_ok.mpr
    refine ⟨r, rfl, hms.imp fun v hv ns hns => ?_⟩
    exact ((hvalues hv).2 r ns).mpr ⟨hroom v hv, r', hns⟩

lemma settled_array {xs : List Term} (ih : ∀ x ∈ xs, Settled x) : Settled (.array xs) := by
  refine ⟨fun room t => ⟨fun h => ⟨?_, room, h⟩, ?_⟩, fun room ns => ⟨fun h => ⟨?_, room, h⟩, ?_⟩⟩
  · obtain ⟨r, rfl, hxs⟩ := array_ok.mp h
    apply Nat.succ_le_succ
    apply itemsDepth_le.mpr
    rcases hxs with ⟨hkind, htext, hstart, hstop⟩ | ⟨hkind, htext, hstart, hstop, hchildren⟩
    · simp [readingDepth_of_readsKind hkind, readingDepth_of_readsText htext, readingDepth_of_readsOffset hstart,
        readingDepth_of_readsOffset hstop]
    · have hdepth := (((ih _ (by simp)).2 r _).mp hchildren).1
      simp [readingDepth_of_readsKind hkind, readingDepth_of_readsText htext, readingDepth_of_readsOffset hstart,
        readingDepth_of_readsOffset hstop, hdepth]
  · rintro ⟨hdepth, room', h⟩
    obtain ⟨r', rfl, hxs⟩ := array_ok.mp h
    obtain ⟨r, rfl⟩ := Nat.exists_eq_add_one_of_ne_zero (Nat.ne_zero_of_lt hdepth)
    have hroom := itemsDepth_le.mp (Nat.le_of_succ_le_succ hdepth)
    apply array_ok.mpr
    refine ⟨r, rfl, hxs.imp fun v hv ns hns => ?_⟩
    exact ((ih v hv).2 r ns).mpr ⟨hroom v hv, r', hns⟩
  · obtain ⟨⟨⟩, -⟩ | ⟨_, ⟨⟩, r, rfl, hxs⟩ := list_ok.mp h
    apply Nat.succ_le_succ
    apply itemsDepth_le.mpr
    have hread := ((List.forall₂_and_left _ _).mpr ⟨ih, hxs⟩).imp fun x n h => (h.1.1 r n).mp h.2
    exact ((List.forall₂_and_left _ _).mp hread).1
  · rintro ⟨hdepth, room', h⟩
    obtain ⟨⟨⟩, -⟩ | ⟨_, ⟨⟩, r', rfl, hxs⟩ := list_ok.mp h
    obtain ⟨r, rfl⟩ := Nat.exists_eq_add_one_of_ne_zero (Nat.ne_zero_of_lt hdepth)
    have hroom := itemsDepth_le.mp (Nat.le_of_succ_le_succ hdepth)
    apply list_ok.mpr
    have hread := (List.forall₂_and_left _ _).mpr ⟨ih, (List.forall₂_and_left _ _).mpr ⟨hroom, hxs⟩⟩
    exact .inr ⟨xs, rfl, r, rfl, hread.imp fun x n h => (h.1.1 r n).mpr ⟨h.2.1, r', h.2.2⟩⟩

lemma settled (x : Term) : Settled x := by
  induction x using Term.induct with
  | null | bool | number | string =>
    constructor
    · simp [readingDepth, Denotes, Term.value, ofValue, Reading.mismatch_ne_ok]
    · simp [readingDepth, DenotesList, list_ok]
  | array xs ih => exact settled_array ih
  | object ms ih => exact settled_object ih

lemma ofValue_ok {x : Term} {t : Node} : ofValue x.value room = .ok t ↔ readingDepth x ≤ room ∧ Denotes x t :=
  (settled x).1 room t

lemma denotes_object {ms : List (List Piece × Term)} {t : Node} :
    Denotes (.object ms) t ↔ Describes DenotesList ms t := by
  constructor
  · rintro ⟨room, h⟩
    obtain ⟨r, -, hms⟩ := object_ok.mp h
    exact hms.imp fun v _ ns hns => ⟨r, hns⟩
  · intro h
    refine ⟨membersDepth ms + 1, object_ok.mpr ⟨_, rfl, h.imp fun v hv ns hns => ?_⟩⟩
    exact ((settled v).2 _ ns).mpr ⟨membersDepth_le.mp (Nat.le_refl _) v hv, hns⟩

lemma denotes_array {xs : List Term} {t : Node} : Denotes (.array xs) t ↔ Lists DenotesList xs t := by
  constructor
  · rintro ⟨room, h⟩
    obtain ⟨r, -, hxs⟩ := array_ok.mp h
    exact hxs.imp fun v _ ns hns => ⟨r, hns⟩
  · intro h
    refine ⟨itemsDepth xs + 1, array_ok.mpr ⟨_, rfl, h.imp fun v hv ns hns => ?_⟩⟩
    exact ((settled v).2 _ ns).mpr ⟨itemsDepth_le.mp (Nat.le_refl _) v hv, hns⟩

lemma denotesList_null {ns : List Node} : DenotesList .null ns ↔ ns = [] := by
  simp [DenotesList, list_ok]

lemma denotesList_array {xs : List Term} {ns : List Node} :
    DenotesList (.array xs) ns ↔ List.Forall₂ Denotes xs ns := by
  constructor
  · rintro ⟨room, h⟩
    obtain ⟨⟨⟩, -⟩ | ⟨_, ⟨⟩, r, -, hxs⟩ := list_ok.mp h
    exact hxs.imp fun x n hn => ⟨r, hn⟩
  · intro h
    refine ⟨itemsDepth xs + 1, list_ok.mpr (.inr ⟨xs, rfl, _, rfl, ?_⟩)⟩
    have hroom := itemsDepth_le.mp (Nat.le_refl (itemsDepth xs))
    exact ((List.forall₂_and_left _ _).mpr ⟨hroom, h⟩).imp fun x n hn => ((settled x).1 _ n).mpr hn

end

lemma read_spelled {x : Term} {document : List UInt8} (h : x.Spelled document) :
    (Document.ofBytes document).read ofValue = ofValue x.value Document.depth := by
  rw [Term.ofBytes_spelled h, Document.read]
  cases ofValue x.value Document.depth <;> rfl

lemma ofJson_ok {x : Term} {document : List UInt8} (h : x.Spelled document) {t : Node} :
    ofJson document = .ok t ↔ readingDepth x ≤ Document.depth ∧ Denotes x t ∧ t.validate = .ok () := by
  rw [ofJson, read_spelled h, ← and_assoc, ← ofValue_ok]
  cases ofValue x.value Document.depth with
  | error f => simp
  | ok n =>
    cases hvalid : n.validate with
    | error e =>
      refine ⟨fun h => by simp [hvalid] at h, ?_⟩
      rintro ⟨⟨⟩, h⟩
      rw [hvalid] at h
      cases h
    | ok =>
      simp only [hvalid]
      constructor
      · rintro ⟨⟩
        exact ⟨rfl, hvalid⟩
      · rintro ⟨⟨⟩, -⟩
        rfl

end AdocProse.Node
