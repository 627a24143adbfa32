import AdocProse.Proofs.Annotation.Document
import AdocProse.Proofs.Check.Reporting
import Mathlib.Data.List.Sort

/-! The body that a check posts. A server reads the settings and the text from it as they are, so bodies are the
same only for the same text, and how the disabled rules were listed cannot be seen in them. -/

namespace AdocProse

open Checker (whitespaceRule)

lemma ruleSet_congr {rules rules' : List String} (h : ∀ rule, rule ∈ rules ↔ rule ∈ rules') :
    ruleSet rules = ruleSet rules' := by
  have hmem : ∀ rule, rule ∈ ruleSet rules ↔ rule ∈ ruleSet rules' := by simpa only [mem_ruleSet] using h
  exact (ruleSet_ascending rules).eq_of_mem_iff (ruleSet_ascending rules') hmem

example : ruleSet ["B", "A", "B"] = ruleSet ["A", "B"] := by decide +kernel

lemma ruleSet_bytes (rules : List String) : ((ruleSet rules).map Utf8.encode).Pairwise (· < ·) :=
  (ruleSet_ascending rules).map _ fun _ _ => Utf8.encode_lt

lemma AnnotatedText.toJson_inj {a b : AnnotatedText} : a.toJson = b.toJson ↔ a = b := by
  constructor
  · intro h
    have ha := a.says_toJson
    rw [h] at ha
    exact datum_inj (Json.says_unique ha b.says_toJson)
  · rintro rfl
    rfl

namespace Query

lemma form_eq {r : CheckRequest} (h : r.disabledRules ≠ []) :
    form r = [("language", r.language), ("data", r.text.toJson),
      ("disabledRules", String.intercalate "," r.disabledRules)] ++
        rulesField "enabledRules" r.enabledRules ++
          (r.motherTongue.toList.map fun tongue => ("motherTongue", tongue)) := by
  have hdisabled : rulesField "disabledRules" r.disabledRules =
      [("disabledRules", String.intercalate "," r.disabledRules)] := if_neg h
  rw [form, hdisabled]
  cases r.motherTongue <;> rfl

lemma rulesField_inj {name : String} {rules rules' : List String} : rulesField name rules = rulesField name rules' ↔
    (rules = [] ↔ rules' = []) ∧ String.intercalate "," rules = String.intercalate "," rules' := by
  rw [rulesField, rulesField]
  split_ifs with h h' h' <;> simp [h, h']

lemma optional_inj {rules rules' : List String} {tongue tongue' : Option String} :
    rulesField "enabledRules" rules ++ (tongue.toList.map fun tongue => ("motherTongue", tongue)) =
        rulesField "enabledRules" rules' ++ (tongue'.toList.map fun tongue => ("motherTongue", tongue)) ↔
      rulesField "enabledRules" rules = rulesField "enabledRules" rules' ∧ tongue = tongue' := by
  rw [rulesField, rulesField]
  cases tongue <;> cases tongue' <;> split_ifs <;> simp

lemma form_inj {r r' : CheckRequest} (h : r.disabledRules ≠ []) (h' : r'.disabledRules ≠ []) : form r = form r' ↔
    r.language = r'.language ∧ r.text = r'.text ∧ r.motherTongue = r'.motherTongue ∧
      String.intercalate "," r.disabledRules = String.intercalate "," r'.disabledRules ∧
      (r.enabledRules = [] ↔ r'.enabledRules = []) ∧
      String.intercalate "," r.enabledRules = String.intercalate "," r'.enabledRules := by
  rw [form_eq h, form_eq h', List.append_assoc, List.append_assoc]
  simp only [List.cons_append, List.nil_append, List.cons.injEq, Prod.mk.injEq, true_and, optional_inj,
    rulesField_inj, AnnotatedText.toJson_inj]
  tauto

end Query

section

variable {c c' : CheckSettings} {text text' : AnnotatedText}

def CheckSettings.body (c : CheckSettings) (text : AnnotatedText) : List UInt8 :=
  Utf8.encode (Form.encode (Query.form ((Checker.ofSettings c).request text)))

def CheckSettings.Posts (c : CheckSettings) (text : AnnotatedText) (body : List UInt8) : Prop :=
  ∀ (w : Surroundings) (server : String) (s : Session), ∃ events,
    (Action.after ((Checker.ofSettings c).check (Server.engine w server) text s)).journal = s.journal ++ events ∧
    (∀ request ∈ Event.requests events, request.method = "POST" ∧
      request.contentType = some "application/x-www-form-urlencoded" ∧ request.body = body) ∧
    ∀ url raw, Url.parse? (Query.endpoint server) = some url →
      w.serve url (Server.request ((Checker.ofSettings c).request text) url.target) = some raw →
      (Event.requests events).length = 1

lemma journal_check (c : CheckSettings) (w : Surroundings) (server : String) (text : AnnotatedText) (s : Session) :
    (Action.after ((Checker.ofSettings c).check (Server.engine w server) text s)).journal = s.journal ++
      (w.exchange (Query.endpoint server) (Server.request ((Checker.ofSettings c).request text))).2 := by
  have hengine := Server.engine_eq w server ((Checker.ofSettings c).request text) s
  cases hfindings : Server.findings
      (w.exchange (Query.endpoint server) (Server.request ((Checker.ofSettings c).request text))).1 with
  | ok found =>
    rw [hfindings] at hengine
    rw [Checker.check_ok hengine]
    rfl
  | error e =>
    rw [hfindings] at hengine
    rw [Checker.check_error hengine]
    rfl

lemma posts_body (c : CheckSettings) (text : AnnotatedText) : c.Posts text (c.body text) := by
  intro w server s
  refine ⟨_, journal_check c w server text s, ?_, ?_⟩
  · intro request hrequest
    obtain ⟨target, rfl⟩ := exchange_requests hrequest
    exact ⟨rfl, rfl, Server.request_body _ _⟩
  · intro url raw hurl hserve
    rw [exchange_reply hurl hserve]
    rfl

lemma disabledRules_ne_nil (c : CheckSettings) (text : AnnotatedText) :
    ((Checker.ofSettings c).request text).disabledRules ≠ [] :=
  List.ne_nil_of_mem (Query.whitespaceRule_disabled c text)

lemma decode_body (c : CheckSettings) (text : AnnotatedText) :
    Form.decode (c.body text) = Query.form ((Checker.ofSettings c).request text) := by
  rw [CheckSettings.body, Form.decode_encode]

lemma body_inj : c.body text = c'.body text' ↔ c.language = c'.language ∧ text = text' ∧
    c.motherTongue = c'.motherTongue ∧
    String.intercalate "," (Checker.ofSettings c).disabledRules =
      String.intercalate "," (Checker.ofSettings c').disabledRules ∧
    ((Checker.ofSettings c).enabledRules = [] ↔ (Checker.ofSettings c').enabledRules = []) ∧
    String.intercalate "," (Checker.ofSettings c).enabledRules =
      String.intercalate "," (Checker.ofSettings c').enabledRules := by
  refine Iff.trans ⟨?_, ?_⟩ (Query.form_inj (disabledRules_ne_nil c text) (disabledRules_ne_nil c' text'))
  · intro h
    rw [← decode_body, h, decode_body]
  · intro h
    rw [CheckSettings.body, CheckSettings.body, h]

lemma ofSettings_congr (hlanguage : c'.language = c.language) (htongue : c'.motherTongue = c.motherTongue)
    (henabled : c'.enabledRules = c.enabledRules)
    (hdisabled : ∀ rule, rule ≠ whitespaceRule → (rule ∈ c'.disabledRules ↔ rule ∈ c.disabledRules)) :
    Checker.ofSettings c' = Checker.ofSettings c := by
  have hset : ruleSet (whitespaceRule :: c'.disabledRules) = ruleSet (whitespaceRule :: c.disabledRules) := by
    apply ruleSet_congr
    intro rule
    rw [List.mem_cons, List.mem_cons]
    by_cases hrule : rule = whitespaceRule
    · simp only [hrule, true_or]
    · rw [hdisabled rule hrule]
  rw [Checker.ofSettings, Checker.ofSettings, hlanguage, htongue, henabled, hset]

end

/-- A check posts one form, whose fields a server reads as they are: the language, the document of the text, the set of
disabled rules in the order of their bytes, the enabled rules as they were listed, and the mother tongue. The
same form is posted only if these are the same, and it does not show how the disabled rules were listed. -/
theorem posted_form (c : CheckSettings) (text : AnnotatedText) :
    let disabled := (Checker.ofSettings c).disabledRules
    let kept := c.enabledRules.filter (· != whitespaceRule)
    c.Posts text (c.body text) ∧
    Form.decode (c.body text) =
      [("language", c.language), ("data", text.toJson), ("disabledRules", String.intercalate "," disabled)] ++
        (if kept = [] then [] else [("enabledRules", String.intercalate "," kept)]) ++
        (match c.motherTongue with
          | some tongue => [("motherTongue", tongue)]
          | none => []) ∧
    (disabled.map Utf8.encode).Pairwise (· < ·) ∧
    (∀ rule, rule ∈ disabled ↔ rule = whitespaceRule ∨ rule ∈ c.disabledRules) ∧
    (∀ (c' : CheckSettings) (text' : AnnotatedText), c'.body text' = c.body text ↔
      c'.language = c.language ∧ text' = text ∧ c'.motherTongue = c.motherTongue ∧
        String.intercalate "," (Checker.ofSettings c').disabledRules = String.intercalate "," disabled ∧
        (c'.enabledRules.filter (· != whitespaceRule) = [] ↔ kept = []) ∧
        String.intercalate "," (c'.enabledRules.filter (· != whitespaceRule)) = String.intercalate "," kept) ∧
    ∀ c' : CheckSettings, c'.language = c.language → c'.motherTongue = c.motherTongue →
      c'.enabledRules = c.enabledRules →
      (∀ rule, rule ≠ whitespaceRule → (rule ∈ c'.disabledRules ↔ rule ∈ c.disabledRules)) →
      c'.Posts text (c.body text) := by
  refine ⟨posts_body c text, ?_, ruleSet_bytes _, fun rule => ?_, fun c' text' => body_inj, ?_⟩
  · rw [decode_body, Query.form_eq (disabledRules_ne_nil c text)]
    cases h : c.motherTongue <;> simp only [Checker.request, Checker.ofSettings, h] <;> rfl
  · exact mem_ruleSet.trans List.mem_cons
  · intro c' hlanguage htongue henabled hdisabled
    have hsame : c'.body text = c.body text := by
      rw [CheckSettings.body, ofSettings_congr hlanguage htongue henabled hdisabled, CheckSettings.body]
    rw [← hsame]
    exact posts_body c' text

theorem posted_form_reordered : ({ disabledRules := ["B", "A&=%"] } : CheckSettings).Posts .empty
    (({ disabledRules := ["A&=%", "WHITESPACE_RULE", "B", "A&=%"] } : CheckSettings).body .empty) := by
  have hdisabled : ∀ rule, rule ≠ whitespaceRule →
      (rule ∈ ["B", "A&=%"] ↔ rule ∈ ["A&=%", "WHITESPACE_RULE", "B", "A&=%"]) := by
    intro rule hrule
    rw [whitespaceRule] at hrule
    simp only [List.mem_cons, List.not_mem_nil, or_false, hrule, false_or]
    tauto
  obtain ⟨-, -, -, -, -, hposts⟩ :=
    posted_form { disabledRules := ["A&=%", "WHITESPACE_RULE", "B", "A&=%"] } .empty
  exact hposts { disabledRules := ["B", "A&=%"] } rfl rfl rfl hdisabled

end AdocProse
