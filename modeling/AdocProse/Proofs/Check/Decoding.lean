import AdocProse.Proofs.Check.Reporting
import AdocProse.Proofs.Json.Written
import AdocProse.Proofs.Tree.Description

/-! Which documents a server may write to report its findings: the members of an object in any order, and
between them others with any values at all. Such a document is read as these findings, and a document with
one incomplete match is not read. -/

namespace AdocProse

namespace Response

open Json
open Node (valuesOf)

def IsString (x : Term) (s : String) : Prop :=
  ∃ ps, x = .string ps ∧ StringLit.text ⟨ps, none⟩ = .ok s

def IsNatural (x : Term) (n : Nat) : Prop :=
  x = .number (.printed n)

def AllNamed (ms : List (List Piece × Term)) : Prop :=
  ∀ m ∈ ms, ∃ name, StringLit.text ⟨m.1, none⟩ = .ok name

/-- An object with one member that matters. -/
inductive Holds {β : Type} (field : String) (reads : Term → β → Prop) : Term → β → Prop
  | object {ms b} (hnames : AllNamed ms) (h : Given reads (valuesOf field ms) (some b)) :
    Holds field reads (.object ms) b

inductive Lists {β : Type} (reads : Term → β → Prop) : Term → List β → Prop
  | array {xs bs} (h : List.Forall₂ reads xs bs) : Lists reads (.array xs) bs

/-- A match reports a finding. Without suggestions the member that lists them may be missing. -/
inductive Shows : Term → Finding → Prop
  | object {ms message suggestions offset length rule} (hnames : AllNamed ms)
    (hmessage : Given IsString (valuesOf "message" ms) (some message))
    (hsuggestions : Given (Lists (Holds "value" IsString)) (valuesOf "replacements" ms) suggestions)
    (hoffset : Given IsNatural (valuesOf "offset" ms) (some offset))
    (hlength : Given IsNatural (valuesOf "length" ms) (some length))
    (hrule : Given (Holds "id" IsString) (valuesOf "rule" ms) (some rule))
    (hfits : offset + length < UInt64.size) :
    Shows (.object ms) ⟨offset, offset + length, message, suggestions.getD [], rule⟩

def ShowsAll : Term → List Finding → Prop :=
  Holds "matches" (Lists Shows)

def Lacks (field : String) (x : Term) : Prop :=
  ∃ ms, x = .object ms ∧ valuesOf field ms = []

/-- A match without one of the members that it needs, or with a rule or a suggestion that lacks its own. -/
inductive Incomplete : Term → Prop
  | own {x} (field : String) (hfield : field ∈ ["message", "offset", "length", "rule"])
    (h : Lacks field x) : Incomplete x
  | rule {ms r} (hr : r ∈ valuesOf "rule" ms) (h : Lacks "id" r) : Incomplete (.object ms)
  | suggestion {ms xs x} (hxs : .array xs ∈ valuesOf "replacements" ms) (hx : x ∈ xs)
    (h : Lacks "value" x) : Incomplete (.object ms)

def ShowsIncomplete (x : Term) : Prop :=
  ∃ ms xs y, x = .object ms ∧ .array xs ∈ valuesOf "matches" ms ∧ y ∈ xs ∧ Incomplete y

section

variable {β : Type} {x : Term} {ms : List (List Piece × Term)} {reads : Term → β → Prop}
  {shows : Value → β → Prop}

lemma named_members (name : String) : named name (Term.memberValues ms) = (valuesOf name ms).map Term.value := by
  simp [Term.memberValues_eq, named, valuesOf, List.filter_map, Function.comp_def]

lemma whole_members (h : AllNamed ms) (known : List String) : Whole known (Term.memberValues ms) := by
  rw [Term.memberValues_eq]
  intro p hp
  obtain ⟨m, hm, rfl⟩ := List.mem_map.mp hp
  obtain ⟨name, hname⟩ := h m hm
  exact ⟨name, hname, fun _ => m.2.skipFault_value⟩

lemma given_members (himp : ∀ x b, reads x b → shows x.value b) {name : String} {o : Option β}
    (h : Given reads (valuesOf name ms) o) : Given shows (named name (Term.memberValues ms)) o := by
  rw [named_members, Given.map]
  exact h.imp fun x _ b => himp x b

lemma Holds.presents (himp : ∀ x b, reads x b → shows x.value b) {field : String} {b : β}
    (h : Holds field reads x b) : PresentsOne field shows x.value b := by
  obtain ⟨hnames, hgiven⟩ := h
  exact .object (whole_members hnames _) (given_members himp hgiven)

lemma Lists.presents (himp : ∀ x b, reads x b → shows x.value b) {bs : List β} (h : Lists reads x bs) :
    PresentsList shows x.value bs := by
  obtain ⟨hxs⟩ := h
  refine .array ?_
  rw [Term.values_eq, List.forall₂_map_left_iff]
  exact hxs.imp himp

end

lemma IsString.isText {x : Term} {s : String} (h : IsString x s) : IsText x.value s := by
  obtain ⟨ps, rfl, hs⟩ := h
  exact ⟨_, rfl, hs⟩

lemma size_members {ms : List (List Piece × Term)} {field : String} {n : Nat}
    (h : Given IsNatural (valuesOf field ms) (some n)) (hn : n < UInt64.size) :
    Given IsSize (named field (Term.memberValues ms)) (some n) := by
  rw [named_members, Given.map]
  obtain ⟨x, hx, rfl⟩ := h
  exact ⟨_, hx, isSize_printed hn⟩

lemma Shows.presents {x : Term} {f : Finding} (h : Shows x f) : PresentsFinding x.value f := by
  obtain ⟨hnames, hmessage, hsuggestions, hoffset, hlength, hrule, hfits⟩ := h
  have htext : ∀ x s, IsString x s → IsText x.value s := fun _ _ => IsString.isText
  rw [← Nat.mod_eq_of_lt hfits]
  exact .object (whole_members hnames _) (given_members htext hmessage)
    (given_members (fun _ _ => Lists.presents fun _ _ => Holds.presents htext) hsuggestions)
    (size_members hoffset (by omega)) (size_members hlength (by omega))
    (given_members (fun _ _ => Holds.presents htext) hrule)

lemma ShowsAll.presents {x : Term} {fs : List Finding} (h : ShowsAll x fs) : PresentsFindings x.value fs :=
  Holds.presents (fun _ _ => Lists.presents fun _ _ => Shows.presents) h

lemma ne_nil_of_given {β : Type} {ms : List (List Piece × Term)} {field : String} {reads : Value → β → Prop}
    {b : β} (h : Given reads (named field (Term.memberValues ms)) (some b)) : valuesOf field ms ≠ [] := by
  intro hnone
  rw [named_members, hnone] at h
  obtain ⟨v, hv, -⟩ := h
  cases hv

lemma PresentsOne.not_lacks {β : Type} {field : String} {reads : Value → β → Prop} {x : Term} {b : β}
    (h : PresentsOne field reads x.value b) : ¬Lacks field x := by
  rintro ⟨ms, rfl, hnone⟩
  cases h with
  | object hwhole hgiven => exact ne_nil_of_given hgiven hnone

lemma reads_of_mem {β : Type} {ms : List (List Piece × Term)} {field : String} {reads : Value → β → Prop}
    {o : Option β} (h : Given reads (named field (Term.memberValues ms)) o) {x : Term}
    (hx : x ∈ valuesOf field ms) : ∃ b, reads x.value b := by
  have hvalue : x.value ∈ named field (Term.memberValues ms) := named_members field ▸ List.mem_map_of_mem hx
  cases o with
  | none => exact absurd hvalue (h ▸ List.not_mem_nil)
  | some b =>
    obtain ⟨v, hv, hb⟩ := h
    rw [hv, List.mem_singleton] at hvalue
    exact ⟨b, hvalue ▸ hb⟩

lemma PresentsList.of_mem {β : Type} {reads : Value → β → Prop} {xs : List Term} {bs : List β}
    (h : PresentsList reads (Term.array xs).value bs) {x : Term} (hx : x ∈ xs) : ∃ b, reads x.value b := by
  rw [Term.value, Term.values_eq] at h
  obtain ⟨hvs⟩ := h
  have hread := hvs.imp fun v b hb => And.intro (Exists.intro b hb) hb
  exact ((List.forall₂_and_left _ _).mp hread).1 _ (List.mem_map_of_mem hx)

lemma PresentsFinding.not_incomplete {x : Term} {f : Finding} (h : PresentsFinding x.value f) :
    ¬Incomplete x := by
  intro hincomplete
  cases hincomplete with
  | own field hfield hlacks =>
    obtain ⟨ms, rfl, hnone⟩ := hlacks
    cases h with
    | object hwhole hmessage hsuggestions hoffset hlength hrule =>
      simp only [List.mem_cons, List.not_mem_nil, or_false] at hfield
      rcases hfield with rfl | rfl | rfl | rfl
      · exact ne_nil_of_given hmessage hnone
      · exact ne_nil_of_given hoffset hnone
      · exact ne_nil_of_given hlength hnone
      · exact ne_nil_of_given hrule hnone
  | rule hr hlacks =>
    cases h with
    | object hwhole hmessage hsuggestions hoffset hlength hrule =>
      obtain ⟨id, hid⟩ := reads_of_mem hrule hr
      exact PresentsOne.not_lacks hid hlacks
  | suggestion hxs hx hlacks =>
    cases h with
    | object hwhole hmessage hsuggestions hoffset hlength hrule =>
      obtain ⟨suggestions, hlist⟩ := reads_of_mem hsuggestions hxs
      obtain ⟨s, hs⟩ := PresentsList.of_mem hlist hx
      exact PresentsOne.not_lacks hs hlacks

lemma PresentsFindings.not_showsIncomplete {x : Term} {fs : List Finding} (h : PresentsFindings x.value fs) :
    ¬ShowsIncomplete x := by
  rintro ⟨ms, xs, y, rfl, hxs, hy, hincomplete⟩
  cases h with
  | object hwhole hmatches =>
    obtain ⟨fs, hlist⟩ := reads_of_mem hmatches hxs
    obtain ⟨f, hf⟩ := PresentsList.of_mem hlist hy
    exact PresentsFinding.not_incomplete hf hincomplete

lemma valuesOf_printed {name : String} {ms : List (String × Term)} :
    valuesOf name (ms.map fun m => ((StringLit.printed m.1).pieces, m.2)) =
      (ms.filter fun m => m.1 = name).map (·.2) := by
  have hprinted (s : String) : StringLit.text ⟨(StringLit.printed s).pieces, none⟩ = .ok s :=
    StringLit.text_printed s
  simp [valuesOf, List.filter_map, Function.comp_def, hprinted]

lemma allNamed_printed (ms : List (String × Term)) :
    AllNamed (ms.map fun m => ((StringLit.printed m.1).pieces, m.2)) := by
  intro m hm
  obtain ⟨p, -, rfl⟩ := List.mem_map.mp hm
  exact ⟨p.1, StringLit.text_printed p.1⟩

lemma isString_ofString (s : String) : IsString (.ofString s) s :=
  ⟨_, rfl, StringLit.text_printed s⟩

end Response

namespace Server

open Response

/-- The answer of a server is read as the findings that it shows. It is no answer at all if one of its matches
is incomplete, whatever the others are. -/
theorem findings_shown {reply : Reply} (hsuccess : reply.isSuccess = true) {x : Json.Term}
    (hx : x.Spelled (Utf8.encode (Utf8.decodeLossy reply.body))) :
    (∀ fs, ShowsAll x fs → findings (some reply) = .ok fs) ∧
    (ShowsIncomplete x → ∃ fault, findings (some reply) = .error (.response fault)) := by
  have hdocument := Json.Term.ofBytes_spelled hx
  have hstatus := isSuccess_iff.mp hsuccess
  refine ⟨fun fs hfs => findings_ok.mpr ⟨hstatus, _, hdocument, hfs.presents⟩, fun hincomplete => ?_⟩
  cases hread : findings (some reply) with
  | ok fs =>
    obtain ⟨-, root, hroot, hfs⟩ := findings_ok.mp hread
    rw [hdocument, Json.Document.mk.injEq] at hroot
    obtain ⟨rfl, -⟩ := hroot
    exact absurd hincomplete hfs.not_showsIncomplete
  | error e =>
    rcases findings_error hread with ⟨hrefused, -⟩ | ⟨-, fault, rfl⟩
    · exact absurd hstatus hrefused
    · exact ⟨fault, rfl⟩

open Json

/-- A match with unknown members, one of them like an offset, and its rule has two that are like its name. -/
def crowdedMatch : Term :=
  .ofMembers [("rule", .ofMembers [("category", .single "id" .null), ("id", .ofString "R")]),
    ("length", .number (.printed 2)), ("context", .single "offset" (.number (.printed 9))),
    ("offset", .number (.printed 3)), ("message", .ofString "m")]

def crowdedText : List Char :=
  Printer.object [("rule", Printer.object [("category", Printer.object [("id", ['n', 'u', 'l', 'l'])]),
      ("id", Printer.string "R")]),
    ("length", Decimal.chars 2), ("context", Printer.object [("offset", Decimal.chars 9)]),
    ("offset", Decimal.chars 3), ("message", Printer.string "m")]

def crowdedDocument (more : List Term) : Term :=
  .ofMembers [("software", .single "matches" .null), ("matches", .array (crowdedMatch :: more))]

def crowdedReply (more : List (List Char)) : Reply :=
  ⟨200, Utf8.encode (String.ofList (Printer.object [("software", Printer.object [("matches", ['n', 'u', 'l', 'l'])]),
    ("matches", Printer.array (crowdedText :: more))]))⟩

section

open Term

lemma written_crowdedMatch : Token.Written crowdedMatch.tokens crowdedText := by
  apply written_object
  refine .cons ⟨rfl, written_object ?_⟩ (.cons ⟨rfl, written_natural 2⟩ (.cons ⟨rfl, ?_⟩ (.cons ⟨rfl, ?_⟩ ?_)))
  · exact .cons ⟨rfl, written_single _ written_null⟩ (.cons ⟨rfl, written_string _⟩ .nil)
  · exact written_single _ (written_natural 9)
  · exact written_natural 3
  · exact .cons ⟨rfl, written_string _⟩ .nil

lemma spelled_crowdedReply {xs : List Term} {items : List (List Char)}
    (h : List.Forall₂ (fun x item => Token.Written x.tokens item) xs items) :
    (crowdedDocument xs).Spelled (Utf8.encode (Utf8.decodeLossy (crowdedReply items).body)) := by
  rw [crowdedReply, Utf8.decodeLossy_encode, Utf8.encode_ofList]
  apply Token.Written.laid
  apply written_object
  refine .cons ⟨rfl, written_single _ written_null⟩ (.cons ⟨rfl, ?_⟩ .nil)
  exact written_array (.cons written_crowdedMatch h)

end

lemma shows_crowdedMatch : Shows crowdedMatch ⟨3, 5, "m", [], "R"⟩ := by
  have hrule : Holds "id" IsString (.ofMembers [("category", .single "id" .null), ("id", .ofString "R")]) "R" :=
    .object (allNamed_printed _) ⟨_, valuesOf_printed, isString_ofString "R"⟩
  exact @Shows.object _ "m" none 3 2 "R" (allNamed_printed _) ⟨_, valuesOf_printed, isString_ofString "m"⟩
    valuesOf_printed ⟨_, valuesOf_printed, rfl⟩ ⟨_, valuesOf_printed, rfl⟩ ⟨_, valuesOf_printed, hrule⟩ (by decide)

theorem findings_shown_crowded :
    findings (some (crowdedReply [])) = .ok [⟨3, 5, "m", [], "R"⟩] ∧
    ∃ fault, findings (some (crowdedReply [Printer.object [("message", Printer.string "m")]])) =
      .error (.response fault) := by
  have hshows : ShowsAll (crowdedDocument []) [⟨3, 5, "m", [], "R"⟩] :=
    .object (allNamed_printed _) ⟨_, valuesOf_printed, .array (.cons shows_crowdedMatch .nil)⟩
  have hbare : Incomplete (.single "message" (.ofString "m")) :=
    .own "offset" (by decide) ⟨_, rfl, @valuesOf_printed _ [("message", .ofString "m")]⟩
  have hincomplete : ShowsIncomplete (crowdedDocument [.single "message" (.ofString "m")]) := by
    refine ⟨_, [crowdedMatch, .single "message" (.ofString "m")], _, rfl, ?_, ?_, hbare⟩
    · rw [valuesOf_printed]
      simp
    · simp
  have hmore := spelled_crowdedReply (.cons (Term.written_single "message" (Term.written_string "m")) .nil)
  exact ⟨(findings_shown rfl (spelled_crowdedReply .nil)).1 _ hshows, (findings_shown rfl hmore).2 hincomplete⟩

end Server

end AdocProse
