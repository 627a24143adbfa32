import AdocProse.Annotation
import AdocProse.Proofs.Json.Written

/-! The JSON document of an annotated text says its segments, each with its kind and its string. So no
two annotated texts have the same document. -/

namespace AdocProse

open Json

namespace Json.Printer

/-- There are no control characters below U+0020 in the text. -/
def Visible (cs : List Char) : Prop :=
  ∀ c ∈ cs, 0x20 ≤ c.toNat

lemma visible_append {cs ds : List Char} : Visible (cs ++ ds) ↔ Visible cs ∧ Visible ds :=
  List.forall_mem_append

lemma visible_cons {c : Char} {cs : List Char} : Visible (c :: cs) ↔ 0x20 ≤ c.toNat ∧ Visible cs :=
  List.forall_mem_cons

lemma visible_escape (c : Char) : Visible (escape c) := by
  by_cases hlow : c.toNat < 0x20
  · have hcontrol : ∀ n < 0x20, (escape (Char.ofNat n)).all (fun d => 0x20 ≤ d.toNat) = true := by decide
    have hc := hcontrol c.toNat hlow
    rw [Char.ofNat_toNat] at hc
    simpa [Visible] using hc
  · by_cases hquote : c = '"'
    · subst hquote
      simp [Visible, escape]
    · by_cases hbackslash : c = '\\'
      · subst hbackslash
        simp [Visible, escape]
      · rw [StringLit.escape_other (by omega) hquote hbackslash]
        simpa [Visible] using hlow

lemma visible_string (s : String) : Visible (string s) := by
  rw [string, visible_cons, visible_append]
  refine ⟨by decide, ?_, by simp [Visible]⟩
  intro d hd
  obtain ⟨c, -, hd⟩ := List.mem_flatMap.mp hd
  exact visible_escape c d hd

lemma visible_commaSeparated {items : List (List Char)} (h : ∀ item ∈ items, Visible item) :
    Visible (commaSeparated items) := by
  induction items with
  | nil => simp [commaSeparated, Visible]
  | cons item items ih =>
    have hitem := h item List.mem_cons_self
    have hitems := ih fun i hi => h i (List.mem_cons_of_mem _ hi)
    cases items with
    | nil => exact hitem
    | cons => exact visible_append.mpr ⟨hitem, visible_cons.mpr ⟨by decide, hitems⟩⟩

lemma visible_array {items : List (List Char)} (h : ∀ item ∈ items, Visible item) :
    Visible (array items) := by
  rw [array, visible_cons, visible_append]
  exact ⟨by decide, visible_commaSeparated h, by simp [Visible]⟩

lemma visible_object {members : List (String × List Char)} (h : ∀ m ∈ members, Visible m.2) :
    Visible (object members) := by
  rw [object, visible_cons, visible_append]
  refine ⟨by decide, visible_commaSeparated ?_, by simp [Visible]⟩
  intro item hitem
  obtain ⟨m, hm, rfl⟩ := List.mem_map.mp hitem
  exact visible_append.mpr ⟨visible_string m.1, visible_cons.mpr ⟨by decide, h m hm⟩⟩

end Json.Printer

namespace Json

lemma Term.datum_ofString (s : String) : (Term.ofString s).datum = .ok (.string s) := by
  change Datum.string <$> StringLit.text (StringLit.printed s) = _
  rw [StringLit.text_printed]
  rfl

lemma Term.datum_single (key : String) {x : Term} {d : Datum} (h : x.datum = .ok d) :
    (Term.single key x).datum = .ok (.object [(key, d)]) := by
  have hkey : StringLit.text ⟨(StringLit.printed key).pieces, none⟩ = .ok key :=
    StringLit.text_printed key
  simp only [single, datum, memberData, hkey, h]
  rfl

lemma says_unique {document : List UInt8} {d d' : Datum} (h : Says document d) (h' : Says document d') :
    d = d' := by
  obtain ⟨x, hx, hd⟩ := h
  obtain ⟨y, hy, hd'⟩ := h'
  rw [Term.spelled_unique hx hy, hd'] at hd
  exact (Except.ok.inj hd).symm

end Json

namespace Segment

def key : Segment → String
  | .text _ => "text"
  | .markup _ => "markup"

def term (s : Segment) : Term :=
  .single s.key (.ofString s.content)

def datum (s : Segment) : Datum :=
  .object [(s.key, .string s.content)]

lemma datum_term (s : Segment) : s.term.datum = .ok s.datum :=
  Term.datum_single s.key (Term.datum_ofString s.content)

lemma datum_inj {s t : Segment} (h : s.datum = t.datum) : s = t := by
  cases s <;> cases t <;> simp_all [datum, key, content]

end Segment

namespace AnnotatedText

lemma segmentJson_eq (s : Segment) : segmentJson s = Printer.object [(s.key, Printer.string s.content)] := by
  cases s <;> rfl

lemma written_segment (s : Segment) : Token.Written s.term.tokens (segmentJson s) := by
  rw [segmentJson_eq]
  exact Term.written_single s.key (Term.written_string s.content)

def term (a : AnnotatedText) : Term :=
  .single "annotation" (.array (a.segments.map Segment.term))

def datum (a : AnnotatedText) : Datum :=
  .object [("annotation", .array (a.segments.map Segment.datum))]

lemma spelled_toJson (a : AnnotatedText) : a.term.Spelled (Utf8.encode a.toJson) := by
  rw [toJson, Utf8.encode_ofList]
  apply Token.Written.laid
  apply Term.written_single
  apply Term.written_array
  rw [List.forall₂_map_left_iff, List.forall₂_map_right_iff]
  exact List.forall₂_same.mpr fun s _ => written_segment s

lemma data_segments (ss : List Segment) : Term.data (ss.map Segment.term) = .ok (ss.map Segment.datum) := by
  induction ss with
  | nil => rfl
  | cons s ss ih =>
    simp only [List.map_cons, Term.data, Segment.datum_term, ih]
    rfl

lemma datum_term (a : AnnotatedText) : a.term.datum = .ok a.datum := by
  apply Term.datum_single
  rw [Term.datum, data_segments]
  rfl

lemma says_toJson (a : AnnotatedText) : Says (Utf8.encode a.toJson) a.datum :=
  ⟨a.term, a.spelled_toJson, a.datum_term⟩

lemma datum_inj {a b : AnnotatedText} (h : a.datum = b.datum) : a = b := by
  have hsegments : a.segments.map Segment.datum = b.segments.map Segment.datum := by
    simpa [datum] using h
  obtain ⟨as⟩ := a
  obtain ⟨bs⟩ := b
  congr 1
  exact List.map_injective_iff.mpr (fun _ _ => Segment.datum_inj) hsegments

lemma visible_toJson (a : AnnotatedText) : Printer.Visible a.toJson.toList := by
  rw [toJson, String.toList_ofList]
  apply Printer.visible_object
  intro m hm
  obtain rfl := List.mem_singleton.mp hm
  apply Printer.visible_array
  intro item hitem
  obtain ⟨s, -, rfl⟩ := List.mem_map.mp hitem
  rw [segmentJson_eq]
  exact Printer.visible_object fun m hm => by
    obtain rfl := List.mem_singleton.mp hm
    exact Printer.visible_string s.content

/-- The JSON document of an annotated text says the list of its segments and nothing else, without
control characters, and it belongs to that annotated text only. -/
theorem toJson_determines (a : AnnotatedText) :
    (∀ d, Says (Utf8.encode a.toJson) d ↔ d = a.datum) ∧ Printer.Visible a.toJson.toList ∧
      ∀ b : AnnotatedText, b.toJson = a.toJson ↔ b = a := by
  refine ⟨fun d => ⟨fun h => says_unique h a.says_toJson, ?_⟩, a.visible_toJson, fun b => ⟨?_, ?_⟩⟩
  · rintro rfl
    exact a.says_toJson
  · intro h
    have hb := b.says_toJson
    rw [h] at hb
    exact datum_inj (says_unique hb a.says_toJson)
  · rintro rfl
    rfl

end AnnotatedText

end AdocProse
