import AdocProse.Proofs.Check.Reporting

/-! The rules that a server is told to disable and those whose findings are dropped. They are the same rules
unless a configured rule has a comma in it: then the server is told its parts, and the rule as a whole is
what is dropped. -/

namespace AdocProse

open Checker (whitespaceRule)

def disabledBy (request : Request) : List String :=
  ((Form.decode request.body).filter (·.1 = "disabledRules")).flatMap fun field => Query.entries field.2

section

variable {c : CheckSettings} {w : Surroundings} {text : AnnotatedText} {server target rule entry : String}

lemma disabled_in_form (r : CheckRequest) :
    (Query.form r).filter (·.1 = "disabledRules") = Query.rulesField "disabledRules" r.disabledRules := by
  rw [Query.form, Query.rulesField, Query.rulesField]
  cases r.motherTongue <;> split <;> split <;> rfl

lemma entries_whitespaceRule : Query.entries whitespaceRule = [whitespaceRule] := by decide

lemma mem_disabledBy : rule ∈ disabledBy (Server.request ((Checker.ofSettings c).request text) target) ↔
    rule = whitespaceRule ∨ ∃ entry ∈ c.disabledRules, rule ∈ Query.entries entry := by
  have hdisabled := (Checker.carries_ofSettings c text).mem_disabled
  have hne : ((Checker.ofSettings c).request text).disabledRules ≠ [] :=
    List.ne_nil_of_mem ((hdisabled whitespaceRule).mpr (.inl rfl))
  rw [disabledBy, Server.request_body, Form.decode_encode, disabled_in_form, Query.rulesField, if_neg hne]
  simp only [List.flatMap_cons, List.flatMap_nil, List.append_nil, Query.entries_intercalate hne, List.mem_flatMap,
    hdisabled]
  constructor
  · rintro ⟨entry, rfl | hentry, hrule⟩
    · rw [entries_whitespaceRule, List.mem_singleton] at hrule
      exact .inl hrule
    · exact .inr ⟨entry, hentry, hrule⟩
  · rintro (rfl | ⟨entry, hentry, hrule⟩)
    · exact ⟨whitespaceRule, .inl rfl, by rw [entries_whitespaceRule]; exact List.mem_cons_self⟩
    · exact ⟨entry, .inr hentry, hrule⟩

lemma not_permits : ¬c.Permits rule ↔ rule = whitespaceRule ∨ rule ∈ c.disabledRules := by
  rw [CheckSettings.Permits, not_and_or, not_not, not_not]

lemma entries_whole (h : ',' ∉ entry.toList) : Query.entries entry = [entry] := by
  rw [Query.entries, Pieces.split_whole h, List.map_singleton, String.ofList_toList]

lemma comma_notMem (h : rule ∈ Query.entries entry) : ',' ∉ rule.toList := by
  obtain ⟨piece, hpiece, rfl⟩ := List.mem_map.mp h
  rw [String.toList_ofList]
  exact Pieces.separator_notMem hpiece

lemma engine_journal {r : CheckRequest} {s s' : Session} {found : List Finding}
    (h : Server.engine w server r s = .ok found s') :
    s'.journal = s.journal ++ (w.exchange (Query.endpoint server) (Server.request r)).2 := by
  rw [Server.engine_eq] at h
  cases hfindings : Server.findings (w.exchange (Query.endpoint server) (Server.request r)).1 with
  | error e =>
    rw [hfindings] at h
    cases h
  | ok fs =>
    rw [hfindings] at h
    cases h
    rfl

lemma engine_requests {r : CheckRequest} {s s' : Session} {found : List Finding} {events : List Event}
    (h : Server.engine w server r s = .ok found s') (hjournal : s'.journal = s.journal ++ events) :
    ∀ request ∈ Event.requests events, ∃ target, request = Server.request r target := by
  have hevents := List.append_cancel_left (hjournal.symm.trans (engine_journal h))
  intro request hrequest
  rw [hevents] at hrequest
  exact exchange_requests hrequest

def reporting (rule : String) : Surroundings where
  valueOf := fun _ => none
  workingDir := []
  accountHome := none
  program := fun _ _ => ⟨[], [], .exited 0⟩
  serve := fun _ _ => some ⟨200, Utf8.encode (String.ofList (Response.printed [⟨0, 1, "", [], rule⟩]))⟩

lemma findings_reporting (rule : String) : Server.findings
    (some ⟨200, Utf8.encode (String.ofList (Response.printed [⟨0, 1, "", [], rule⟩]))⟩) =
      .ok [⟨0, 1, "", [], rule⟩] := by
  have hpresented : Response.findings (String.ofList (Response.printed [⟨0, 1, "", [], rule⟩])) =
      .ok [⟨0, 1, "", [], rule⟩] := Response.findings_printed (by simp [UInt64.size])
  rw [Server.findings_success rfl, Utf8.decodeLossy_encode, hpresented]
  rfl

lemma permitted_reported (h : c.Permits rule) (text : AnnotatedText) :
    (Checker.ofSettings c).check (Server.engine (reporting rule) "http://h") text (.start ⟨[]⟩) =
      .ok [⟨0, 1, "", [], rule⟩]
        ⟨⟨[]⟩, [.sent (Server.request ((Checker.ofSettings c).request text) "/v2/check")]⟩ := by
  have hurl : Url.parse? (Query.endpoint "http://h") = some ⟨false, "h", 80, "/v2/check"⟩ := by decide +kernel
  have hengine := Server.engine_reply (w := reporting rule) (r := (Checker.ofSettings c).request text) hurl rfl
    (.start ⟨[]⟩)
  have hreceived (body : List UInt8) : (Reply.mk 200 body).received = some ⟨200, body⟩ := rfl
  have hkept : [⟨0, 1, "", [], rule⟩].filter (Checker.ofSettings c).keeps = [⟨0, 1, "", [], rule⟩] :=
    List.filter_cons_of_pos (Checker.keeps_iff.mpr h)
  rw [hreceived, findings_reporting] at hengine
  rw [Checker.check_ok hengine, hkept]
  rfl

/-- Every finding that is reported is of a rule that the server was not told to disable. -/
def StayOut (c : CheckSettings) : Prop :=
  ∀ (w : Surroundings) (server : String) (text : AnnotatedText) (s s' : Session) (kept : List Finding)
    (events : List Event), (Checker.ofSettings c).check (Server.engine w server) text s = .ok kept s' →
    s'.journal = s.journal ++ events →
    ∀ request ∈ Event.requests events, ∀ f ∈ kept, f.rule ∉ disabledBy request

lemma stayOut_iff : StayOut c ↔ ∀ entry ∈ c.disabledRules, ∀ rule ∈ Query.entries entry, ¬c.Permits rule := by
  constructor
  · -- A server that reports a part which is permitted was told not to.
    intro h entry hentry rule hrule hpermits
    refine h _ _ .empty _ _ _ _ (permitted_reported hpermits .empty) rfl _ List.mem_cons_self _ List.mem_cons_self ?_
    exact mem_disabledBy.mpr (.inr ⟨entry, hentry, hrule⟩)
  · intro h w server text s s' kept events hcheck hjournal request hrequest f hf hrule
    obtain ⟨⟨found, hfound⟩, hpermits⟩ := Checker.check_kept hcheck
    obtain ⟨target, rfl⟩ := engine_requests hfound hjournal request hrequest
    rcases mem_disabledBy.mp hrule with hwhite | ⟨entry, hentry, hrule⟩
    · exact (hpermits f hf).1 hwhite
    · exact h entry hentry f.rule hrule (hpermits f hf)

end

/-- No finding of a rule that the server was told to disable is reported exactly if every part of a configured
rule is itself disabled. The server is told the rules whose findings are dropped exactly if no
configured rule has a comma in it. -/
theorem disabled_rules_agree (c : CheckSettings) :
    (StayOut c ↔ ∀ entry ∈ c.disabledRules, ∀ rule ∈ Query.entries entry, ¬c.Permits rule) ∧
    ((∀ text target rule, rule ∈ disabledBy (Server.request ((Checker.ofSettings c).request text) target) ↔
      ¬c.Permits rule) ↔ ∀ entry ∈ c.disabledRules, ',' ∉ entry.toList) := by
  refine ⟨stayOut_iff, ?_⟩
  simp only [mem_disabledBy, not_permits]
  constructor
  · intro h entry hentry hcomma
    rcases (h .empty "" entry).mpr (.inr hentry) with rfl | ⟨other, -, hother⟩
    · exact absurd hcomma (by decide)
    · exact comma_notMem hother hcomma
  · intro h _ _ rule
    refine or_congr_right ⟨?_, fun hrule => ⟨rule, hrule, ?_⟩⟩
    · rintro ⟨entry, hentry, hrule⟩
      rw [entries_whole (h entry hentry), List.mem_singleton] at hrule
      exact hrule ▸ hentry
    · rw [entries_whole (h rule hrule)]
      exact List.mem_cons_self

/-- The server is told to disable the part, and its finding of the part is reported. -/
theorem disabled_part_reported : ¬ ∀ c, StayOut c := by
  intro h
  exact stayOut_iff.mp (h { disabledRules := ["A,B"] }) "A,B" (by decide) "A" (by decide) (by decide)

end AdocProse
