import AdocProse.Check.Response
import AdocProse.Proofs.Json.Members
import AdocProse.Proofs.Json.Printed

/-! Which findings a response presents: members may stand in any order, and others may stand between them
as long as they are well formed. A response is read exactly if it presents findings, and then as these. -/

namespace AdocProse.Response

open Json

def IsText (v : Value) (s : String) : Prop :=
  ∃ l, v = .string l ∧ l.text = .ok s

def IsSize (v : Value) (n : Nat) : Prop :=
  ∃ k, v = .number k ∧ k.toNumber = .ok (.natural n)

/-- Every member has a name, and those that are not known are well formed. -/
def Whole (known : List String) (ms : List (StringLit × Value)) : Prop :=
  ∀ m ∈ ms, ∃ name, m.1.text = .ok name ∧ (name ∉ known → m.2.skipFault = none)

/-- A record of one field, as an object or as an array. -/
inductive PresentsOne {β : Type} (field : String) (reads : Value → β → Prop) : Value → β → Prop where
  | object {ms b} (hwhole : Whole [field] ms) (h : Given reads (named field ms) (some b)) :
    PresentsOne field reads (.object ms none) b
  | array {v b} (h : reads v b) : PresentsOne field reads (.array [v] none) b

inductive PresentsList {β : Type} (reads : Value → β → Prop) : Value → List β → Prop where
  | array {vs bs} (h : List.Forall₂ reads vs bs) : PresentsList reads (.array vs none) bs

def PresentsSuggestions : Value → List String → Prop :=
  PresentsList (PresentsOne "value" IsText)

def PresentsRule : Value → String → Prop :=
  PresentsOne "id" IsText

def findingFields : List String :=
  ["message", "replacements", "offset", "length", "rule"]

/-- A finding with its place, which is where the text begins and how long it is. It ends at the sum of the two,
reduced to 64 bits if that is larger. Suggestions may be missing from an object. -/
inductive PresentsFinding : Value → Finding → Prop where
  | object {ms message suggestions offset length rule} (hwhole : Whole findingFields ms)
    (hmessage : Given IsText (named "message" ms) (some message))
    (hsuggestions : Given PresentsSuggestions (named "replacements" ms) suggestions)
    (hoffset : Given IsSize (named "offset" ms) (some offset))
    (hlength : Given IsSize (named "length" ms) (some length))
    (hrule : Given PresentsRule (named "rule" ms) (some rule)) :
    PresentsFinding (.object ms none)
      ⟨offset, (offset + length) % UInt64.size, message, suggestions.getD [], rule⟩
  | array {m r o l u message suggestions offset length rule} (hmessage : IsText m message)
    (hsuggestions : PresentsSuggestions r suggestions) (hoffset : IsSize o offset) (hlength : IsSize l length)
    (hrule : PresentsRule u rule) :
    PresentsFinding (.array [m, r, o, l, u] none)
      ⟨offset, (offset + length) % UInt64.size, message, suggestions, rule⟩

def PresentsFindings : Value → List Finding → Prop :=
  PresentsOne "matches" (PresentsList PresentsFinding)

section

variable {σ β : Type} {room : Nat} {v : Value}

lemma string_ok {s : String} : Reading.string v room = .ok s ↔ IsText v s :=
  Reading.string_eq_ok

lemma size_ok {n : Nat} : Reading.size v room = .ok n ↔ IsSize v n :=
  Reading.size_eq_ok

lemma members_whole {r : Record Value σ β} (hskip : r.skip = Value.skipFault) {known : List String}
    (hknown : r.fields.map (·.name) = known) {ms : List (StringLit × Value)} :
    (∀ m ∈ ms, ∃ name, m.1.text = .ok name ∧ (r.field? name = none → r.skip m.2 = none)) ↔ Whole known ms := by
  simp only [Record.field?_eq_none, hknown, hskip, Whole]

/-- What a record is whose only field must be there. -/
structure Single (r : Record Value σ β) (f : Field Value σ) (read : Value → Reading β) (u : Option β → σ → σ) :
    Prop where
  fields : r.fields = [f]
  skip : r.skip = Value.skipFault
  needed : f.optional = false
  set : ∀ v s, f.set v s = do return u (some (← read v)) s
  isSet : ∀ b s, f.isSet (u (some b) s) = true
  empty : u none r.empty = r.empty
  notSet : f.isSet r.empty = false
  finish : ∀ o, r.finish (u o r.empty) = Record.required f.name o

lemma Single.separate {r : Record Value σ β} {f : Field Value σ} {read : Value → Reading β}
    {u : Option β → σ → σ} (h : Single r f read u) : r.Separate where
  names := by simp [h.fields]
  writes := by
    intro g hg a room s s' hset
    rw [h.fields, List.mem_singleton] at hg
    subst hg
    refine Field.writes_put (u := fun b => u (some b)) h.set h.isSet ?_ hset
    intro g' hg' hne
    rw [h.fields, List.mem_singleton] at hg'
    exact absurd (congrArg _ hg') hne

lemma required_ok {name : String} {o : Option β} {b : β} : Record.required name o = .ok b ↔ o = some b := by
  cases o <;> simp [Record.required]

section

variable {r : Record Value σ β} {f : Field Value σ} {read : Value → Reading β} {u : Option β → σ → σ}
  {reads : Value → β → Prop} {b : β}

lemma Single.members_ok (h : Single r f read u) (hreads : ∀ v b, read v room = .ok b ↔ reads v b)
    {ms : List (StringLit × Value)} :
    r.ofMembers ms none room = .ok b ↔ Whole [f.name] ms ∧ Given reads (named f.name ms) (some b) := by
  have hknown : r.fields.map (·.name) = [f.name] := by simp [h.fields]
  rw [Record.ofMembers_eq_ok]
  simp only [Record.members_ok h.separate, members_whole h.skip hknown]
  rw [h.fields]
  simp only [Record.Gathers.cons_iff h.set h.empty h.notSet, Record.Gathers.finished, hreads]
  constructor
  · rintro ⟨s, ⟨hwhole, o, ho, rfl⟩, hfinish⟩
    rw [h.finish, required_ok] at hfinish
    exact ⟨hwhole, hfinish ▸ ho⟩
  · rintro ⟨hwhole, hb⟩
    exact ⟨_, ⟨hwhole, some b, hb, rfl⟩, (h.finish _).trans rfl⟩

lemma Single.items_ok (h : Single r f read u) (hreads : ∀ v b, read v room = .ok b ↔ reads v b)
    {vs : List Value} : r.ofItems vs none room = .ok b ↔ ∃ v, vs = [v] ∧ reads v b := by
  rw [Record.ofItems_eq_ok, h.fields]
  cases vs with
  | nil => simp [Record.items_absent, h.needed]
  | cons v vs =>
    simp only [Record.items_present, Record.items_done, h.set, Reading.bind_eq_ok, hreads, List.cons.injEq]
    constructor
    · rintro ⟨s, ⟨t, ⟨b', hb', ht⟩, rfl, rfl⟩, hfinish⟩
      cases ht
      rw [h.finish, required_ok, Option.some.injEq] at hfinish
      exact ⟨v, ⟨rfl, rfl⟩, hfinish ▸ hb'⟩
    · rintro ⟨_, ⟨rfl, rfl⟩, hb⟩
      exact ⟨_, ⟨_, ⟨b, hb, rfl⟩, rfl, rfl⟩, (h.finish _).trans rfl⟩

lemma Single.ofValue_ok (h : Single r f read u) (hreads : ∀ v b, read v room = .ok b ↔ reads v b) :
    r.ofValue v (room + 1) = .ok b ↔ PresentsOne f.name reads v b := by
  rw [Record.ofValue_eq_ok]
  simp only [Nat.add_right_cancel_iff, exists_eq_left', h.members_ok hreads, h.items_ok hreads]
  constructor
  · rintro (⟨ms, rfl, hwhole, hb⟩ | ⟨_, rfl, w, rfl, hb⟩)
    · exact .object hwhole hb
    · exact .array hb
  · rintro (⟨hwhole, hb⟩ | hb)
    · exact .inl ⟨_, rfl, hwhole, hb⟩
    · exact .inr ⟨_, rfl, _, rfl, hb⟩

end

lemma list_ok {item : Value → Reading β} {presents : Value → β → Prop}
    (h : ∀ v b, item v room = .ok b ↔ presents v b) {bs : List β} :
    Reading.list item v (room + 1) = .ok bs ↔ PresentsList presents v bs := by
  rw [Reading.list_eq_ok]
  constructor
  · rintro ⟨vs, n, rfl, hroom, hvs⟩
    obtain rfl := Nat.add_right_cancel hroom
    exact .array (hvs.imp fun v b => (h v b).mp)
  · rintro ⟨hvs⟩
    exact ⟨_, room, rfl, rfl, hvs.imp fun v b => (h v b).mpr⟩

lemma rule_ok {s : String} : rule.ofValue v (room + 1) = .ok s ↔ PresentsRule v s :=
  Single.ofValue_ok (f := rule.fields[0]) (u := fun o s => { s with id := o })
    ⟨rfl, rfl, rfl, fun _ _ => rfl, fun _ _ => rfl, rfl, rfl, fun _ => rfl⟩ fun _ _ => string_ok

lemma replacement_ok {s : String} : replacement.ofValue v (room + 1) = .ok s ↔ PresentsOne "value" IsText v s :=
  Single.ofValue_ok (f := replacement.fields[0]) (u := fun o s => { s with value := o })
    ⟨rfl, rfl, rfl, fun _ _ => rfl, fun _ _ => rfl, rfl, rfl, fun _ => rfl⟩ fun _ _ => string_ok

lemma suggestions_ok {ss : List String} :
    Reading.list replacement.ofValue v (room + 2) = .ok ss ↔ PresentsSuggestions v ss :=
  list_ok fun _ _ => replacement_ok

lemma mem_findingFields {f : Field Value MatchSlots} : f ∈ finding.fields ↔ f = finding.fields[0] ∨
    f = finding.fields[1] ∨ f = finding.fields[2] ∨ f = finding.fields[3] ∨ f = finding.fields[4] := by
  simp [finding]

lemma separate_finding : finding.Separate where
  names := by decide
  writes := by
    intro f hf a room s s' h
    rcases mem_findingFields.mp hf with rfl | rfl | rfl | rfl | rfl
    on_goal 1 =>
      refine Field.writes_put (u := fun x s => { s with message := some x }) (fun _ _ => rfl) (fun _ _ => rfl) ?_ h
    on_goal 2 =>
      refine Field.writes_put (u := fun x s => { s with replacements := some x }) (fun _ _ => rfl)
        (fun _ _ => rfl) ?_ h
    on_goal 3 =>
      refine Field.writes_put (u := fun x s => { s with offset := some x }) (fun _ _ => rfl) (fun _ _ => rfl) ?_ h
    on_goal 4 =>
      refine Field.writes_put (u := fun x s => { s with length := some x }) (fun _ _ => rfl) (fun _ _ => rfl) ?_ h
    on_goal 5 =>
      refine Field.writes_put (u := fun x s => { s with rule := some x }) (fun _ _ => rfl) (fun _ _ => rfl) ?_ h
    -- A field notices no other slot than its own.
    all_goals
      intro g hg hne x
      rcases mem_findingFields.mp hg with rfl | rfl | rfl | rfl | rfl
      all_goals first
        | exact absurd rfl hne
        | exact ⟨fun _ => rfl, fun _ _ _ => Reading.map_return fun _ => rfl⟩

lemma finish_ok {s : MatchSlots} {f : Finding} : finding.finish s = .ok f ↔
    ∃ message offset length rule, s.message = some message ∧ s.offset = some offset ∧ s.length = some length ∧
      s.rule = some rule ∧
        f = ⟨offset, (offset + length) % UInt64.size, message, s.replacements.getD [], rule⟩ := by
  cases hmessage : s.message <;> cases hoffset : s.offset <;> cases hlength : s.length <;>
    cases hrule : s.rule <;>
    simp [finding, Record.required, hmessage, hoffset, hlength, hrule, bind, Except.bind, pure, Except.pure, eq_comm]

open Record.Gathers (cons_iff finished)

lemma members_given {ms : List (StringLit × Value)} {s : MatchSlots} :
    Record.Gathers ms (room + 2) finding.fields finding.empty s ↔
      Given IsText (named "message" ms) s.message ∧
      Given PresentsSuggestions (named "replacements" ms) s.replacements ∧
      Given IsSize (named "offset" ms) s.offset ∧ Given IsSize (named "length" ms) s.length ∧
      Given PresentsRule (named "rule" ms) s.rule := by
  trans ∃ message, Given IsText (named "message" ms) message ∧
      ∃ suggestions, Given PresentsSuggestions (named "replacements" ms) suggestions ∧
      ∃ offset, Given IsSize (named "offset" ms) offset ∧
      ∃ length, Given IsSize (named "length" ms) length ∧
      ∃ rule, Given PresentsRule (named "rule" ms) rule ∧ s = ⟨message, suggestions, offset, length, rule⟩
  · apply (cons_iff (u := fun o s => { s with message := o }) (fun _ _ => rfl) rfl rfl).trans
    refine exists_congr fun message => and_congr (Given.congr fun _ _ => string_ok) ?_
    apply (cons_iff (u := fun o s => { s with replacements := o }) (fun _ _ => rfl) rfl rfl).trans
    refine exists_congr fun suggestions => and_congr (Given.congr fun _ _ => suggestions_ok) ?_
    apply (cons_iff (u := fun o s => { s with offset := o }) (fun _ _ => rfl) rfl rfl).trans
    refine exists_congr fun offset => and_congr (Given.congr fun _ _ => size_ok) ?_
    apply (cons_iff (u := fun o s => { s with length := o }) (fun _ _ => rfl) rfl rfl).trans
    refine exists_congr fun length => and_congr (Given.congr fun _ _ => size_ok) ?_
    apply (cons_iff (u := fun o s => { s with rule := o }) (fun _ _ => rfl) rfl rfl).trans
    exact exists_congr fun rule => and_congr (Given.congr fun _ _ => rule_ok) finished
  · constructor
    · rintro ⟨message, hmessage, suggestions, hsuggestions, offset, hoffset, length, hlength, rule, hrule, rfl⟩
      exact ⟨hmessage, hsuggestions, hoffset, hlength, hrule⟩
    · rintro ⟨hmessage, hsuggestions, hoffset, hlength, hrule⟩
      exact ⟨_, hmessage, _, hsuggestions, _, hoffset, _, hlength, _, hrule, rfl⟩

lemma five_items {m r o l u : Value} {s : MatchSlots} :
    finding.items none 0 finding.fields finding.empty [m, r, o, l, u] (room + 2) = .ok s ↔
      ∃ message, IsText m message ∧ ∃ suggestions, PresentsSuggestions r suggestions ∧
        ∃ offset, IsSize o offset ∧ ∃ length, IsSize l length ∧ ∃ rule, PresentsRule u rule ∧
          s = ⟨some message, some suggestions, some offset, some length, some rule⟩ := by
  simp [finding, Record.items_present, Record.items_done, Reading.map_eq_ok, string_ok, size_ok, suggestions_ok,
    rule_ok]

lemma finding_members_ok {ms : List (StringLit × Value)} {f : Finding} :
    finding.ofMembers ms none (room + 2) = .ok f ↔ PresentsFinding (.object ms none) f := by
  have hknown : finding.fields.map (·.name) = findingFields := rfl
  simp only [Record.ofMembers_eq_ok, Record.members_ok separate_finding, members_whole rfl hknown, members_given,
    finish_ok]
  constructor
  · rintro ⟨s, ⟨hms, hmessage, hsuggestions, hoffset, hlength, hrule⟩, message, offset, length, rule, smessage,
      soffset, slength, srule, rfl⟩
    exact .object hms (smessage ▸ hmessage) hsuggestions (soffset ▸ hoffset) (slength ▸ hlength) (srule ▸ hrule)
  · rintro ⟨hms, hmessage, hsuggestions, hoffset, hlength, hrule⟩
    exact ⟨⟨_, _, _, _, _⟩, ⟨hms, hmessage, hsuggestions, hoffset, hlength, hrule⟩, _, _, _, _, rfl, rfl, rfl, rfl,
      rfl⟩

lemma finding_items_ok {vs : List Value} {f : Finding} :
    finding.ofItems vs none (room + 2) = .ok f ↔ PresentsFinding (.array vs none) f := by
  simp only [Record.ofItems_eq_ok, finish_ok]
  constructor
  · rintro ⟨s, hitems, message, offset, length, rule, smessage, soffset, slength, srule, rfl⟩
    rcases vs with _ | ⟨m, _ | ⟨r, _ | ⟨o, _ | ⟨l, _ | ⟨u, _ | ⟨e, vs⟩⟩⟩⟩⟩⟩
    case cons.cons.cons.cons.cons.nil =>
      obtain ⟨_, hmessage, _, hsuggestions, _, hoffset, _, hlength, _, hrule, rfl⟩ := five_items.mp hitems
      cases smessage
      cases soffset
      cases slength
      cases srule
      exact .array hmessage hsuggestions hoffset hlength hrule
    -- Too few items, or too many.
    all_goals simp [finding, Record.items_present, Record.items_absent, Record.items_done] at hitems
  · intro h
    cases h with
    | array hmessage hsuggestions hoffset hlength hrule =>
      exact ⟨_, five_items.mpr ⟨_, hmessage, _, hsuggestions, _, hoffset, _, hlength, _, hrule, rfl⟩, _, _, _, _,
        rfl, rfl, rfl, rfl, rfl⟩

lemma finding_ok {f : Finding} : finding.ofValue v (room + 3) = .ok f ↔ PresentsFinding v f := by
  rw [Record.ofValue_eq_ok]
  constructor
  · rintro ⟨n, hroom, ⟨ms, rfl, h⟩ | ⟨vs, rfl, h⟩⟩
    · obtain rfl : room + 2 = n := Nat.succ.inj hroom
      exact finding_members_ok.mp h
    · obtain rfl : room + 2 = n := Nat.succ.inj hroom
      exact finding_items_ok.mp h
  · intro h
    have hshape := h
    cases hshape with
    | object => exact ⟨room + 2, rfl, .inl ⟨_, rfl, finding_members_ok.mpr h⟩⟩
    | array => exact ⟨room + 2, rfl, .inr ⟨_, rfl, finding_items_ok.mpr h⟩⟩

lemma response_ok {fs : List Finding} : response.ofValue v (room + 5) = .ok fs ↔ PresentsFindings v fs :=
  Single.ofValue_ok (f := response.fields[0]) (u := fun o s => { s with matches? := o })
    ⟨rfl, rfl, rfl, fun _ _ => rfl, fun _ _ => rfl, rfl, rfl, fun _ => rfl⟩
    fun _ _ => list_ok fun _ _ => finding_ok

end

lemma findings_ok {body : String} {fs : List Finding} : findings body = .ok fs ↔
    ∃ root, Document.ofBytes (Utf8.encode body) = ⟨root, false⟩ ∧ PresentsFindings root fs := by
  have hread (d : Document) : d.read response.ofValue = .ok fs ↔
      d.trailing = false ∧ PresentsFindings d.root fs := by
    have hroot : response.ofValue d.root Document.depth = .ok fs ↔ _ := response_ok
    rw [Document.read, ← hroot]
    cases response.ofValue d.root Document.depth <;> cases d.trailing <;> simp [bind, Except.bind]
  rw [findings, hread]
  constructor
  · rintro ⟨htrailing, h⟩
    exact ⟨_, by rw [← htrailing], h⟩
  · rintro ⟨root, hroot, h⟩
    rw [hroot]
    exact ⟨rfl, h⟩

example : findings "[[[\"m\",[],18446744073709551615,1,[\"R\"]]]]" =
    .ok [⟨18446744073709551615, 0, "m", [], "R"⟩] := by decide +kernel

def printedFinding (f : Finding) : List Char :=
  Printer.object [
    ("message", Printer.string f.message),
    ("replacements", Printer.array (f.suggestions.map fun s => Printer.object [("value", Printer.string s)])),
    ("offset", Decimal.chars f.start),
    ("length", Decimal.chars (f.stop - f.start)),
    ("rule", Printer.object [("id", Printer.string f.rule)])]

def printed (fs : List Finding) : List Char :=
  Printer.object [("matches", Printer.array (fs.map printedFinding))]

def one (field : String) (v : Value) : Value :=
  .object [(.printed field, v)] none

def findingMembers (f : Finding) : List (String × Value) := [
  ("message", .string (.printed f.message)),
  ("replacements", .array (f.suggestions.map fun s => one "value" (.string (.printed s))) none),
  ("offset", .number (.printed f.start)),
  ("length", .number (.printed (f.stop - f.start))),
  ("rule", one "id" (.string (.printed f.rule)))]

def findingValue (f : Finding) : Value :=
  .object ((findingMembers f).map fun m => (.printed m.1, m.2)) none

lemma reads_one (field : String) {cs : List Char} {v : Value} (h : Reads cs v) :
    Reads (Printer.object [(field, cs)]) (one field v) :=
  .object (.cons ⟨rfl, h⟩ .nil)

lemma reads_items {α : Type} {print : α → List Char} {value : α → Value} (h : ∀ a, Reads (print a) (value a))
    (as : List α) : Reads (Printer.array (as.map print)) (.array (as.map value) none) := by
  apply Reads.array
  rw [List.forall₂_map_left_iff, List.forall₂_map_right_iff]
  exact List.forall₂_same.mpr fun a _ => h a

lemma reads_finding (f : Finding) : Reads (printedFinding f) (findingValue f) :=
  .object (.cons ⟨rfl, .string _⟩ (.cons ⟨rfl, reads_items (fun s => reads_one "value" (.string s)) _⟩
    (.cons ⟨rfl, .natural _⟩ (.cons ⟨rfl, .natural _⟩ (.cons ⟨rfl, reads_one "id" (.string _)⟩ .nil)))))

lemma isText_printed (s : String) : IsText (.string (.printed s)) s :=
  ⟨_, rfl, StringLit.text_printed s⟩

lemma isSize_printed {n : Nat} (h : n < UInt64.size) : IsSize (.number (.printed n)) n :=
  ⟨_, rfl, Numeral.toNumber_printed h⟩

lemma whole_printed {known : List String} {ms : List (String × Value)} (h : ∀ m ∈ ms, m.1 ∈ known) :
    Whole known (ms.map fun m => (.printed m.1, m.2)) := by
  intro m hm
  obtain ⟨p, hp, rfl⟩ := List.mem_map.mp hm
  exact ⟨p.1, StringLit.text_printed _, fun hout => absurd (h p hp) hout⟩

lemma named_printed {name : String} {ms : List (String × Value)} :
    named name (ms.map fun m => (.printed m.1, m.2)) = (ms.filter fun m => m.1 = name).map (·.2) := by
  simp [named, List.filter_map, Function.comp_def, StringLit.text_printed]

lemma presents_one {β : Type} {field : String} {reads : Value → β → Prop} {v : Value} {b : β} (h : reads v b) :
    PresentsOne field reads (one field v) b := by
  have hwhole : Whole [field] (List.map (fun m => (.printed m.1, m.2)) [(field, v)]) := whole_printed (by simp)
  have hnamed : named field (List.map (fun m => (.printed m.1, m.2)) [(field, v)]) = [v] := by
    rw [named_printed]
    simp
  exact .object hwhole ⟨v, hnamed, h⟩

lemma presents_items {α : Type} {reads : Value → α → Prop} {value : α → Value} (as : List α)
    (h : ∀ a ∈ as, reads (value a) a) : PresentsList reads (.array (as.map value) none) as := by
  refine .array ?_
  rw [List.forall₂_map_left_iff]
  exact List.forall₂_same.mpr h

lemma presents_finding {f : Finding} (hspan : f.start ≤ f.stop) (hfits : f.stop < UInt64.size) :
    PresentsFinding (findingValue f) f := by
  obtain ⟨start, stop, message, suggestions, rule⟩ := f
  have hstart : start < UInt64.size := Nat.lt_of_le_of_lt hspan hfits
  have hlength : stop - start < UInt64.size := Nat.lt_of_le_of_lt (Nat.sub_le _ _) hfits
  have hstop : (start + (stop - start)) % UInt64.size = stop := by
    rw [Nat.add_sub_cancel' hspan]
    exact Nat.mod_eq_of_lt hfits
  have hwhole : Whole findingFields ((findingMembers ⟨start, stop, message, suggestions, rule⟩).map
      fun m => (.printed m.1, m.2)) := whole_printed (by simp [findingMembers, findingFields])
  have hpresents := @PresentsFinding.object _ message (some suggestions) start (stop - start) rule hwhole
    ⟨_, named_printed, isText_printed message⟩
    ⟨_, named_printed, presents_items suggestions fun s _ => presents_one (isText_printed s)⟩
    ⟨_, named_printed, isSize_printed hstart⟩ ⟨_, named_printed, isSize_printed hlength⟩
    ⟨_, named_printed, presents_one (isText_printed rule)⟩
  rw [hstop] at hpresents
  exact hpresents

lemma findings_printed {fs : List Finding} (h : ∀ f ∈ fs, f.start ≤ f.stop ∧ f.stop < UInt64.size) :
    findings (String.ofList (printed fs)) = .ok fs := by
  have hreads : Reads (printed fs) (one "matches" (.array (fs.map findingValue) none)) :=
    reads_one _ (reads_items reads_finding fs)
  refine findings_ok.mpr ⟨_, ?_, presents_one (presents_items fs fun f hf => presents_finding (h f hf).1 (h f hf).2)⟩
  rw [Utf8.encode_ofList, hreads.document]

end AdocProse.Response
