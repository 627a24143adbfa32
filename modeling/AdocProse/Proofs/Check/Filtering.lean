import AdocProse.Proofreading
import AdocProse.Proofs.Check.RuleFields

/-! A check asks the engine once, with the configured selection of rules, and drops from its answer
the findings of disabled rules and nothing else. -/

namespace AdocProse

open Checker (whitespaceRule)

/-- The request carries the settings. Its disabled rules are a set in ascending order; its enabled
rules are those of the settings that can be enabled, in their order. -/
structure CheckRequest.Carries (r : CheckRequest) (c : CheckSettings) : Prop where
  language_eq : r.language = c.language
  motherTongue_eq : r.motherTongue = c.motherTongue
  mem_disabled : ∀ rule, rule ∈ r.disabledRules ↔ rule = whitespaceRule ∨ rule ∈ c.disabledRules
  ascending : r.disabledRules.Pairwise (· < ·)
  enabled_eq : r.enabledRules = c.enabledRules.filter (· ≠ whitespaceRule)

def CheckSettings.Permits (c : CheckSettings) (rule : String) : Prop :=
  rule ≠ whitespaceRule ∧ rule ∉ c.disabledRules

instance (c : CheckSettings) (rule : String) : Decidable (c.Permits rule) :=
  inferInstanceAs (Decidable (rule ≠ whitespaceRule ∧ rule ∉ c.disabledRules))

namespace Checker

variable {ε σ : Type}

/-- The engine, with every request noted in a list beside its own state. -/
def noting (engine : CheckRequest → EStateM ε σ (List Finding)) (r : CheckRequest) :
    EStateM ε (σ × List CheckRequest) (List Finding) := fun s =>
  match engine r s.1 with
  | .ok found t => .ok found (t, s.2 ++ [r])
  | .error e t => .error e (t, s.2 ++ [r])

lemma carries_ofSettings (c : CheckSettings) (text : AnnotatedText) :
    ((ofSettings c).request text).Carries c where
  language_eq := rfl
  motherTongue_eq := rfl
  mem_disabled rule := mem_ruleSet.trans List.mem_cons
  ascending := ruleSet_ascending _
  enabled_eq := List.filter_congr fun rule _ => by rw [Bool.eq_iff_iff]; simp

lemma keeps_iff {c : CheckSettings} {f : Finding} :
    (ofSettings c).keeps f = true ↔ c.Permits f.rule := by
  have hmem := (carries_ofSettings c .empty).mem_disabled f.rule
  rw [keeps, Bool.not_eq_true', ← Bool.not_eq_true, List.contains_iff_mem]
  exact (not_congr hmem).trans not_or

lemma filter_keeps (c : CheckSettings) (found : List Finding) :
    found.filter (ofSettings c).keeps = found.filter fun f => c.Permits f.rule :=
  List.filter_congr fun f _ => by simp [← keeps_iff]

lemma warnings_eq (c : CheckSettings) : warnings c =
    List.replicate (c.enabledRules.count whitespaceRule)
      "Ignoring enabled rule WHITESPACE_RULE: it cannot be enabled" := by
  rw [warnings, List.filter_beq, List.map_replicate]
  rfl

section

variable {checker : Checker} {engine : CheckRequest → EStateM ε σ (List Finding)} {tree : Node}
  {s t : σ}

lemma check_ok {text : AnnotatedText} {found : List Finding}
    (h : engine (checker.request text) s = .ok found t) :
    checker.check engine text s = .ok (found.filter checker.keeps) t := by
  simp only [check, bind, EStateM.bind, h, pure, EStateM.pure]

lemma check_error {text : AnnotatedText} {e : ε} (h : engine (checker.request text) s = .error e t) :
    checker.check engine text s = .error e t := by
  simp only [check, bind, EStateM.bind, h]

lemma checkTree_ok {found : List Finding}
    (h : engine (checker.request tree.annotate) s = .ok found t) :
    checker.checkTree engine tree s = .ok (found.filter checker.keeps) t :=
  check_ok h

lemma checkTree_error {e : ε} (h : engine (checker.request tree.annotate) s = .error e t) :
    checker.checkTree engine tree s = .error e t :=
  check_error h

lemma noting_ok {r : CheckRequest} {found : List Finding} (h : engine r s = .ok found t)
    (noted : List CheckRequest) : noting engine r (s, noted) = .ok found (t, noted ++ [r]) := by
  simp only [noting, h]

lemma noting_error {r : CheckRequest} {e : ε} (h : engine r s = .error e t)
    (noted : List CheckRequest) : noting engine r (s, noted) = .error e (t, noted ++ [r]) := by
  simp only [noting, h]

lemma check_kept {c : CheckSettings} {text : AnnotatedText} {kept : List Finding}
    (h : (ofSettings c).check engine text s = .ok kept t) :
    (∃ found, engine ((ofSettings c).request text) s = .ok found t) ∧ ∀ f ∈ kept, c.Permits f.rule := by
  cases hanswer : engine ((ofSettings c).request text) s with
  | error e t' =>
    rw [check_error hanswer] at h
    cases h
  | ok found t' =>
    rw [check_ok hanswer] at h
    cases h
    exact ⟨⟨found, rfl⟩, fun f hf => keeps_iff.mp (List.mem_filter.mp hf).2⟩

lemma permits_of_checkTree {c : CheckSettings} {kept : List Finding}
    (h : (ofSettings c).checkTree engine tree s = .ok kept t) : ∀ f ∈ kept, c.Permits f.rule :=
  (check_kept h).2

end

/-- A checker made from settings logs one warning for every mention of the rule that cannot be enabled.
It asks any engine exactly once, with the text of the tree and the settings; it fails as the engine
fails, and else keeps exactly the findings of rules that are permitted. -/
theorem checkTree_filters (c : CheckSettings) (tree : Node)
    (engine : CheckRequest → EStateM ε σ (List Finding)) (s : σ) :
    let checker := ofSettings c
    let request := checker.request tree.annotate
    (∀ session : Session, Settings.newChecker (ε := ε) c session = .ok checker
      { session with
        journal := session.journal ++ List.replicate (c.enabledRules.count whitespaceRule)
          (.warning "Ignoring enabled rule WHITESPACE_RULE: it cannot be enabled") }) ∧
    request.text = tree.annotate ∧ request.Carries c ∧
    (∀ found t, engine request s = .ok found t →
      checker.checkTree (noting engine) tree (s, []) =
        .ok (found.filter fun f => c.Permits f.rule) (t, [request])) ∧
    (∀ e t, engine request s = .error e t →
      checker.checkTree (noting engine) tree (s, []) = .error e (t, [request])) ∧
    ∀ kept t, checker.checkTree engine tree s = .ok kept t → ∀ f ∈ kept, c.Permits f.rule := by
  refine ⟨fun session => ?_, rfl, carries_ofSettings c _, ?_, ?_, fun kept t => permits_of_checkTree⟩
  · rw [← List.map_replicate, ← warnings_eq]
    rfl
  · intro found t h
    rw [checkTree_ok (noting_ok h []), filter_keeps]
    rfl
  · intro e t h
    exact checkTree_error (noting_error h [])

def answersOnce (_ : CheckRequest) : EStateM CheckError Nat (List Finding) := fun asked =>
  if asked = 0 then
    .ok [⟨1, 3, "", [], whitespaceRule⟩, ⟨0, 1, "", ["A"], "CASE"⟩, ⟨0, 4, "", [], "QUOTES"⟩,
      ⟨0, 1, "", ["A"], "CASE"⟩] 1
  else .error .http (asked + 1)

def overlapping : CheckSettings where
  disabledRules := ["QUOTES", "QUOTES"]
  enabledRules := [whitespaceRule, "QUOTES", whitespaceRule]

theorem checkTree_filters_overlapping :
    let request : CheckRequest :=
      ⟨"en-US", none, ["QUOTES", whitespaceRule], ["QUOTES"], ⟨[.text "a  b"]⟩⟩
    Settings.newChecker (ε := CheckError) overlapping (.start ⟨[]⟩) =
      .ok (ofSettings overlapping) ⟨⟨[]⟩, List.replicate 2
        (.warning "Ignoring enabled rule WHITESPACE_RULE: it cannot be enabled")⟩ ∧
    (ofSettings overlapping).checkTree (noting answersOnce) (.leaf .text "a  b" 0) (0, []) =
      .ok [⟨0, 1, "", ["A"], "CASE"⟩, ⟨0, 1, "", ["A"], "CASE"⟩] (1, [request]) ∧
    (ofSettings overlapping).checkTree (noting answersOnce) (.leaf .text "a  b" 0) (1, []) =
      .error .http (2, [request]) ∧
    overlapping.Permits "CASE" := by
  obtain ⟨hnew, -, -, hanswered, -, hkept⟩ :=
    checkTree_filters overlapping (.leaf .text "a  b" 0) answersOnce 0
  obtain ⟨-, -, -, -, hfailed, -⟩ :=
    checkTree_filters overlapping (.leaf .text "a  b" 0) answersOnce 1
  exact ⟨hnew _, hanswered _ _ rfl, hfailed _ _ rfl, hkept _ _ rfl ⟨0, 1, "", ["A"], "CASE"⟩ (by decide)⟩

end Checker

end AdocProse
