import AdocProse.Check.Query
import AdocProse.Proofs.Text.Pieces

/-! The rules that the fields of a request name. A server reads a field as a list with commas, so a
rule with commas in it names several. -/

namespace AdocProse

lemma mem_insertRule {r rule : String} {rules : List String} :
    r ∈ insertRule rule rules ↔ r = rule ∨ r ∈ rules := by
  induction rules with
  | nil => simp [insertRule]
  | cons first rules ih =>
    rw [insertRule]
    split
    · exact List.mem_cons
    · split
      · next heq => simp [heq]
      · rw [List.mem_cons, ih, List.mem_cons, or_left_comm]

lemma mem_ruleSet {r : String} {rules : List String} : r ∈ ruleSet rules ↔ r ∈ rules := by
  induction rules with
  | nil => rfl
  | cons rule rules ih => rw [ruleSet, List.foldr_cons, mem_insertRule, ← ruleSet, ih, List.mem_cons]

lemma insertRule_ascending {rule : String} {rules : List String} (h : rules.Pairwise (· < ·)) :
    (insertRule rule rules).Pairwise (· < ·) := by
  induction rules with
  | nil => exact List.pairwise_singleton _ rule
  | cons first rules ih =>
    obtain ⟨hfirst, hrules⟩ := List.pairwise_cons.mp h
    rw [insertRule]
    split
    · next hlt =>
      refine List.pairwise_cons.mpr ⟨fun r hr => ?_, h⟩
      rcases List.mem_cons.mp hr with rfl | hr
      · exact hlt
      · exact String.lt_trans hlt (hfirst r hr)
    · next hle =>
      split
      · exact h
      · next hne =>
        refine List.pairwise_cons.mpr ⟨fun r hr => ?_, ih hrules⟩
        rcases mem_insertRule.mp hr with rfl | hr
        · exact Std.lt_of_le_of_ne (String.not_lt.mp hle) (Ne.symm hne)
        · exact hfirst r hr

lemma ruleSet_ascending (rules : List String) : (ruleSet rules).Pairwise (· < ·) := by
  induction rules with
  | nil => exact .nil
  | cons rule rules ih => exact insertRule_ascending ih

namespace Query

open Checker (whitespaceRule)

def entries (field : String) : List String :=
  (Pieces.split ',' field.toList).map String.ofList

lemma entries_intercalate {rules : List String} (hne : rules ≠ []) :
    entries (String.intercalate "," rules) = rules.flatMap entries := by
  have htexts : rules.map String.toList ≠ [] := by simpa using hne
  have hcomma : ",".toList = [','] := rfl
  rw [entries, String.toList_intercalate, hcomma, Pieces.split_intercalate ',' htexts,
    List.flatMap_map, List.map_flatMap]
  rfl

lemma mem_rulesField {name : String} {rules : List String} {field : String × String} :
    field ∈ rulesField name rules ↔ rules ≠ [] ∧ field = (name, String.intercalate "," rules) := by
  rw [rulesField]
  split
  · next h => simp [h]
  · next h => simp [h]

lemma disabled_mem_form {r : CheckRequest} {v : String} :
    ("disabledRules", v) ∈ form r ↔
      r.disabledRules ≠ [] ∧ v = String.intercalate "," r.disabledRules := by
  cases h : r.motherTongue <;> simp [form, mem_rulesField, h]

lemma enabled_mem_form {r : CheckRequest} {v : String} :
    ("enabledRules", v) ∈ form r ↔
      r.enabledRules ≠ [] ∧ v = String.intercalate "," r.enabledRules := by
  cases h : r.motherTongue <;> simp [form, mem_rulesField, h]

section

variable (s : CheckSettings) (text : AnnotatedText)

lemma entries_enabled {r : CheckRequest} {rule : String} :
    (∀ v, ("enabledRules", v) ∈ form r → rule ∉ entries v) ↔
      ∀ enabled ∈ r.enabledRules, rule ∉ entries enabled := by
  constructor
  · intro h enabled henabled hrule
    have hne : r.enabledRules ≠ [] := List.ne_nil_of_mem henabled
    apply h _ (enabled_mem_form.mpr ⟨hne, rfl⟩)
    rw [entries_intercalate hne]
    exact List.mem_flatMap.mpr ⟨enabled, henabled, hrule⟩
  · intro h v hv hrule
    obtain ⟨hne, rfl⟩ := enabled_mem_form.mp hv
    rw [entries_intercalate hne] at hrule
    obtain ⟨enabled, henabled, hrule⟩ := List.mem_flatMap.mp hrule
    exact h enabled henabled hrule

lemma whitespaceRule_disabled :
    whitespaceRule ∈ ((Checker.ofSettings s).request text).disabledRules :=
  mem_ruleSet.mpr List.mem_cons_self

lemma mem_enabled {rule : String} :
    rule ∈ ((Checker.ofSettings s).request text).enabledRules ↔
      rule ∈ s.enabledRules ∧ rule ≠ whitespaceRule := by
  simp [Checker.request, Checker.ofSettings]

/-- The rule about white space is disabled by every request. The request also enables it exactly if
one of the configured rules, other than that rule itself, names it among others. -/
theorem whitespaceRule_in_form :
    (∃ v, ("disabledRules", v) ∈ form ((Checker.ofSettings s).request text)) ∧
    (∀ v, ("disabledRules", v) ∈ form ((Checker.ofSettings s).request text) →
      whitespaceRule ∈ entries v) ∧
    ((∀ v, ("enabledRules", v) ∈ form ((Checker.ofSettings s).request text) →
        whitespaceRule ∉ entries v) ↔
      ∀ rule ∈ s.enabledRules, rule ≠ whitespaceRule → whitespaceRule ∉ entries rule) := by
  have hdisabled := whitespaceRule_disabled s text
  have hne := List.ne_nil_of_mem hdisabled
  refine ⟨⟨_, disabled_mem_form.mpr ⟨hne, rfl⟩⟩, ?_, ?_⟩
  · intro v hv
    obtain ⟨-, rfl⟩ := disabled_mem_form.mp hv
    rw [entries_intercalate hne]
    exact List.mem_flatMap.mpr ⟨whitespaceRule, hdisabled, by decide⟩
  · simp only [entries_enabled, mem_enabled, and_imp]

end

theorem whitespaceRule_enabled_by_commas :
    ¬ ∀ (s : CheckSettings) (text : AnnotatedText) (v : String),
      ("enabledRules", v) ∈ form ((Checker.ofSettings s).request text) →
        whitespaceRule ∉ entries v := by
  intro h
  exact h { enabledRules := ["WHITESPACE_RULE,WHITESPACE_RULE"] } .empty
    "WHITESPACE_RULE,WHITESPACE_RULE" (by decide) (by decide)

end Query

end AdocProse
