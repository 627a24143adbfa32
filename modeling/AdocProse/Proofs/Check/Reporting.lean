import AdocProse.Proofs.Check.Filtering
import AdocProse.Proofs.Check.Response
import AdocProse.Proofs.Parser.Stages
import AdocProse.Proofs.Web.Form

/-! A server is asked about a document exactly if there is a tree of it, and exactly once. What is reported is
its answer as a whole, or an error. -/

namespace AdocProse

section

variable {w : Surroundings} {r : CheckRequest} {server : String} {url : Url} {raw reply : Reply}

lemma exchange_reply {address : String} {request : String → Request} (hurl : Url.parse? address = some url)
    (hserve : w.serve url (request url.target) = some raw) :
    w.exchange address request = (raw.received, [.sent (request url.target)]) := by
  rw [Surroundings.exchange]
  simp only [hurl, hserve]

lemma exchange_received {address : String} {request : String → Request}
    (h : (w.exchange address request).1 = some reply) : ∃ url raw, Url.parse? address = some url ∧
      w.serve url (request url.target) = some raw ∧ raw.received = some reply := by
  rw [Surroundings.exchange] at h
  cases hurl : Url.parse? address with
  | none => simp [hurl] at h
  | some url =>
    cases hserve : w.serve url (request url.target) with
    | none => simp [hurl, hserve] at h
    | some raw => exact ⟨url, raw, rfl, hserve, by simpa [hurl, hserve] using h⟩

lemma exchange_events (w : Surroundings) (address : String) (request : String → Request) :
    (w.exchange address request).2 = [] ∨ ∃ url, Url.parse? address = some url ∧
      (w.exchange address request).2 = [.sent (request url.target)] := by
  rw [Surroundings.exchange]
  cases Url.parse? address with
  | none => exact .inl rfl
  | some url =>
    cases hserve : w.serve url (request url.target) with
    | none => exact .inl (by simp only [hserve])
    | some reply => exact .inr ⟨url, rfl, by simp only [hserve]⟩

lemma exchange_requests {address : String} {request : String → Request} {sent : Request}
    (h : sent ∈ Event.requests (w.exchange address request).2) : ∃ target, sent = request target := by
  rcases exchange_events w address request with hnone | ⟨url, -, hsent⟩
  · rw [hnone] at h
    cases h
  · rw [hsent] at h
    exact ⟨url.target, List.mem_singleton.mp h⟩

namespace Server

lemma request_body (r : CheckRequest) (target : String) :
    (request r target).body = Utf8.encode (Form.encode (Query.form r)) := by
  simp only [request]

lemma engine_eq (w : Surroundings) (server : String) (r : CheckRequest) (s : Session) :
    engine w server r s = Action.ofExcept (findings (w.exchange (Query.endpoint server) (request r)).1)
      ⟨s.files, s.journal ++ (w.exchange (Query.endpoint server) (request r)).2⟩ := by
  simp only [engine, bind, EStateM.bind, Action.record]

lemma engine_reply (hurl : Url.parse? (Query.endpoint server) = some url)
    (hserve : w.serve url (request r url.target) = some raw) (s : Session) :
    engine w server r s = Action.ofExcept (findings raw.received)
      ⟨s.files, s.journal ++ [.sent (request r url.target)]⟩ := by
  rw [engine_eq, exchange_reply hurl hserve]

lemma findings_status (h : reply.isSuccess = false) :
    findings (some reply) = .error (.status reply.status (Utf8.decodeLossy reply.body)) := by
  rw [findings, h]
  rfl

lemma findings_success (h : reply.isSuccess = true) : findings (some reply) =
    (Response.findings (Utf8.decodeLossy reply.body)).mapError CheckError.response := by
  simp only [findings, h, if_true]

def Reports (reply : Reply) (presented : List Finding) : Prop :=
  (200 ≤ reply.status ∧ reply.status < 300) ∧ ∃ root,
    Json.Document.ofBytes (Utf8.encode (Utf8.decodeLossy reply.body)) = ⟨root, false⟩ ∧
      Response.PresentsFindings root presented

lemma isSuccess_iff : reply.isSuccess = true ↔ 200 ≤ reply.status ∧ reply.status < 300 := by
  simp [Reply.isSuccess]

lemma findings_ok {presented : List Finding} :
    findings (some reply) = .ok presented ↔ Reports reply presented := by
  rw [Reports, ← isSuccess_iff, ← Response.findings_ok]
  cases h : reply.isSuccess with
  | false => simp [findings_status h]
  | true =>
    rw [findings_success h]
    cases Response.findings (Utf8.decodeLossy reply.body) <;> simp [Except.mapError]

lemma findings_error {e : CheckError} (h : findings (some reply) = .error e) :
    (¬(200 ≤ reply.status ∧ reply.status < 300) ∧
      e = .status reply.status (Utf8.decodeLossy reply.body)) ∨
    ((200 ≤ reply.status ∧ reply.status < 300) ∧ ∃ fault, e = .response fault) := by
  rw [← isSuccess_iff]
  cases hstatus : reply.isSuccess with
  | false =>
    rw [findings_status hstatus, Except.error.injEq] at h
    exact .inl ⟨by simp, h.symm⟩
  | true =>
    rw [findings_success hstatus] at h
    cases hfindings : Response.findings (Utf8.decodeLossy reply.body) with
    | ok fs =>
      rw [hfindings] at h
      cases h
    | error fault =>
      rw [hfindings] at h
      cases h
      exact .inr ⟨rfl, fault, rfl⟩

end Server

end

namespace Settings

def posted (c : Settings) (t : Node) (url : Url) : Request :=
  Server.request ((Checker.ofSettings c.checker).request t.annotate) url.target

def asked (c : Settings) (t : Node) (url : Url) (s : Session) : Session :=
  ⟨s.files, s.journal ++ (Checker.warnings c.checker).map Event.warning ++ [.sent (c.posted t url)]⟩

section

variable {c : Settings} {w : Surroundings} {input : Path} {s s' : Session} {t : Node} {url : Url} {raw : Reply}

lemma check_unparsed {e : ParseError} (h : c.parser.parse w input s = .error e s') :
    c.check w input s = .error (.parse e) s' := by
  simp only [check, parse, Action.mapError, bind, EStateM.bind, h]

lemma checkTree_asked (hurl : Url.parse? (Query.endpoint c.checker.server) = some url)
    (hserve : w.serve url (c.posted t url) = some raw) (s : Session) :
    (Checker.ofSettings c.checker).checkTree (Server.engine w c.checker.server) t
      ⟨s.files, s.journal ++ (Checker.warnings c.checker).map Event.warning⟩ =
    match Server.findings raw.received with
    | .ok presented => .ok (presented.filter fun f => c.checker.Permits f.rule) (c.asked t url s)
    | .error e => .error e (c.asked t url s) := by
  have hengine := Server.engine_reply hurl hserve
    ⟨s.files, s.journal ++ (Checker.warnings c.checker).map Event.warning⟩
  cases hanswer : Server.findings raw.received with
  | ok presented =>
    rw [hanswer] at hengine
    rw [Checker.checkTree_ok hengine, Checker.filter_keeps]
    rfl
  | error e =>
    rw [hanswer] at hengine
    exact Checker.checkTree_error hengine

lemma check_reported (hparse : c.parser.parse w input s = .ok t s')
    (hurl : Url.parse? (Query.endpoint c.checker.server) = some url)
    (hserve : w.serve url (c.posted t url) = some raw) {presented : List Finding}
    (hfindings : Server.findings raw.received = .ok presented) : ∃ done text,
      c.check w input s = .ok (presented.filter fun f => c.checker.Permits f.rule) done ∧
        done.journal = (c.asked t url s').journal ++ [.info text] := by
  have hasked := checkTree_asked hurl hserve s'
  simp only [hfindings] at hasked
  refine ⟨⟨(c.asked t url s').files, (c.asked t url s').journal ++ [.info (input.text ++ ": " ++
    Decimal.text (presented.filter fun f => c.checker.Permits f.rule).length ++ " potential error(s)")]⟩, _, ?_, rfl⟩
  simp only [check, parse, Action.mapError, newChecker, Action.record, Action.inform, bind, EStateM.bind, hparse,
    pure, EStateM.pure, hasked]

lemma check_refused (hparse : c.parser.parse w input s = .ok t s')
    (hurl : Url.parse? (Query.endpoint c.checker.server) = some url)
    (hserve : w.serve url (c.posted t url) = some raw) {e : CheckError}
    (hfindings : Server.findings raw.received = .error e) :
    c.check w input s = .error (.check e) (c.asked t url s') := by
  have hasked := checkTree_asked hurl hserve s'
  simp only [hfindings] at hasked
  simp only [check, parse, Action.mapError, newChecker, Action.record, bind, EStateM.bind, hparse, pure,
    EStateM.pure, hasked]

lemma requests_asked (c : Settings) (t : Node) (url : Url) {events : List Event} (h : s'.journal = s.journal ++ events) :
    ∃ events', (c.asked t url s').journal = s.journal ++ events' ∧
      Event.requests events' = Event.requests events ++ [c.posted t url] := by
  refine ⟨events ++ (Checker.warnings c.checker).map Event.warning ++ [.sent (c.posted t url)], ?_, ?_⟩
  · simp only [asked, h, List.append_assoc]
  · -- Of what is behind the events of parsing only the last one is a request.
    have hwarnings : Event.requests ((Checker.warnings c.checker).map Event.warning) = [] :=
      List.filterMap_eq_nil_iff.mpr (List.forall_mem_map.mpr fun _ _ => rfl)
    rw [Event.requests_append, Event.requests_append, hwarnings, List.append_nil]
    rfl

lemma check_journal (hparse : c.parser.parse w input s = .ok t s')
    (hurl : Url.parse? (Query.endpoint c.checker.server) = some url)
    (hserve : w.serve url (c.posted t url) = some raw) : ∃ events,
      (Action.after (c.check w input s)).journal = (c.asked t url s').journal ++ events ∧
        Event.requests events = [] := by
  cases hfindings : Server.findings raw.received with
  | ok presented =>
    obtain ⟨done, text, hcheck, hdone⟩ := check_reported hparse hurl hserve hfindings
    rw [hcheck]
    exact ⟨[.info text], hdone, rfl⟩
  | error e =>
    rw [check_refused hparse hurl hserve hfindings]
    exact ⟨[], (List.append_nil _).symm, rfl⟩

lemma check_ok (hparse : c.parser.parse w input s = .ok t s')
    (hurl : Url.parse? (Query.endpoint c.checker.server) = some url)
    (hserve : w.serve url (c.posted t url) = some raw) (hreceived : raw.received = some reply) {found : List Finding} :
    (∃ s'', c.check w input s = .ok found s'') ↔ ∃ presented, Server.Reports reply presented ∧
      found = presented.filter fun f => c.checker.Permits f.rule := by
  constructor
  · rintro ⟨s'', h⟩
    cases hfindings : Server.findings raw.received with
    | ok presented =>
      obtain ⟨done, text, hcheck, -⟩ := check_reported hparse hurl hserve hfindings
      rw [hreceived, Server.findings_ok] at hfindings
      rw [hcheck] at h
      cases h
      exact ⟨presented, hfindings, rfl⟩
    | error e => simp [check_refused hparse hurl hserve hfindings] at h
  · rintro ⟨presented, hpresented, rfl⟩
    rw [← Server.findings_ok, ← hreceived] at hpresented
    obtain ⟨done, text, hcheck, -⟩ := check_reported hparse hurl hserve hpresented
    exact ⟨done, hcheck⟩

lemma check_answered (hparse : c.parser.parse w input s = .ok t s') {found : List Finding} {s'' : Session}
    (h : c.check w input s = .ok found s'') : ∃ reply, (w.exchange (Query.endpoint c.checker.server)
      (Server.request ((Checker.ofSettings c.checker).request t.annotate))).1 = some reply := by
  rw [← Option.ne_none_iff_exists']
  intro hnone
  have hengine := Server.engine_eq w c.checker.server ((Checker.ofSettings c.checker).request t.annotate)
    ⟨s'.files, s'.journal ++ (Checker.warnings c.checker).map Event.warning⟩
  rw [hnone] at hengine
  have hrefused := Checker.checkTree_error hengine
  simp [check, parse, Action.mapError, newChecker, Action.record, bind, EStateM.bind, hparse, pure, EStateM.pure,
    hrefused] at h

lemma check_ok_iff {found : List Finding} : (∃ s'', c.check w input s = .ok found s'') ↔
    ∃ t s' url raw reply presented, c.parser.parse w input s = .ok t s' ∧
      Url.parse? (Query.endpoint c.checker.server) = some url ∧ w.serve url (c.posted t url) = some raw ∧
      raw.received = some reply ∧ Server.Reports reply presented ∧
        found = presented.filter fun f => c.checker.Permits f.rule := by
  constructor
  · rintro ⟨s'', h⟩
    cases hparse : c.parser.parse w input s with
    | error e s' => simp [check_unparsed hparse] at h
    | ok t s' =>
      obtain ⟨reply, hanswer⟩ := check_answered hparse h
      obtain ⟨url, raw, hurl, hserve, hreceived⟩ := exchange_received hanswer
      obtain ⟨presented, hreports, rfl⟩ := (check_ok hparse hurl hserve hreceived).mp ⟨s'', h⟩
      exact ⟨t, s', url, raw, reply, presented, rfl, hurl, hserve, hreceived, hreports, rfl⟩
  · rintro ⟨t, s', url, raw, reply, presented, hparse, hurl, hserve, hreceived, hreports, rfl⟩
    exact (check_ok hparse hurl hserve hreceived).mpr ⟨presented, hreports, rfl⟩

lemma check_error (hparse : c.parser.parse w input s = .ok t s')
    (hurl : Url.parse? (Query.endpoint c.checker.server) = some url)
    (hserve : w.serve url (c.posted t url) = some raw) (hreceived : raw.received = some reply) {e : DocumentError}
    {s'' : Session} (h : c.check w input s = .error e s'') :
    (¬(200 ≤ reply.status ∧ reply.status < 300) ∧
      e = .check (.status reply.status (Utf8.decodeLossy reply.body))) ∨
    ((200 ≤ reply.status ∧ reply.status < 300) ∧ ∃ fault, e = .check (.response fault)) := by
  cases hfindings : Server.findings raw.received with
  | ok presented =>
    obtain ⟨done, text, hcheck, -⟩ := check_reported hparse hurl hserve hfindings
    simp [hcheck] at h
  | error cause =>
    rw [check_refused hparse hurl hserve hfindings, EStateM.Result.error.injEq] at h
    rw [hreceived] at hfindings
    obtain ⟨rfl, -⟩ := h
    rcases Server.findings_error hfindings with ⟨hstatus, rfl⟩ | ⟨hstatus, fault, rfl⟩
    · exact .inl ⟨hstatus, rfl⟩
    · exact .inr ⟨hstatus, fault, rfl⟩

lemma data_in_form (r : CheckRequest) :
    ((Query.form r).filter (·.1 = "data")).map (·.2) = [r.text.toJson] := by
  rw [Query.form, Query.rulesField, Query.rulesField]
  cases r.motherTongue <;> split <;> split <;> rfl

lemma data_posted (c : Settings) (t : Node) (url : Url) :
    ((Form.decode (c.posted t url).body).filter (·.1 = "data")).map (·.2) = [t.annotate.toJson] := by
  rw [posted, Server.request_body, Form.decode_encode, data_in_form]
  rfl

end

/-- If a document cannot be parsed, that is the error of the check, and nothing is asked about it: parsing itself
fetches the parser at most. Else the tree is posted once, behind such a request, and the findings that the
reply presents are reported, those of disabled rules left out; a reply that presents none is an error. -/
theorem check_follows_parse (c : Settings) (w : Surroundings) (input : Path) (s : Session) :
    (∀ e s', c.parser.parse w input s = .error e s' → c.check w input s = .error (.parse e) s' ∧
      ∃ events, s'.journal = s.journal ++ events ∧ c.parser.Fetched (Event.requests events)) ∧
    ∀ t s' url raw reply, c.parser.parse w input s = .ok t s' →
      Url.parse? (Query.endpoint c.checker.server) = some url →
      w.serve url (c.posted t url) = some raw → raw.received = some reply →
      (∃ events fetched, (Action.after (c.check w input s)).journal = s.journal ++ events ∧
        Event.requests events = fetched ++ [c.posted t url] ∧ c.parser.Fetched fetched) ∧
      (c.posted t url).method = "POST" ∧
      ((Form.decode (c.posted t url).body).filter (·.1 = "data")).map (·.2) = [t.annotate.toJson] ∧
      (∀ found, (∃ s'', c.check w input s = .ok found s'') ↔ ∃ presented, Server.Reports reply presented ∧
        found = presented.filter fun f => c.checker.Permits f.rule) ∧
      ∀ e s'', c.check w input s = .error e s'' →
        (¬(200 ≤ reply.status ∧ reply.status < 300) ∧
          e = .check (.status reply.status (Utf8.decodeLossy reply.body))) ∨
        ((200 ≤ reply.status ∧ reply.status < 300) ∧ ∃ fault, e = .check (.response fault)) := by
  have hstaged := ParserSettings.parse_staged c.parser w input s
  obtain ⟨events, hjournal, -, hfetched⟩ := hstaged.leaves
  constructor
  · intro e s' hparse
    rw [hparse] at hjournal
    exact ⟨check_unparsed hparse, events, hjournal, hfetched⟩
  · intro t s' url raw reply hparse hurl hserve hreceived
    rw [hparse, Action.after] at hjournal
    obtain ⟨asked, hasked, hrequests⟩ := requests_asked c t url hjournal
    obtain ⟨later, hlater, hquiet⟩ := check_journal hparse hurl hserve
    refine ⟨⟨asked ++ later, Event.requests events, ?_, ?_, hfetched⟩, rfl, data_posted c t url,
      fun found => check_ok hparse hurl hserve hreceived,
      fun e s'' => check_error hparse hurl hserve hreceived⟩
    · rw [hlater, hasked, List.append_assoc]
    · rw [Event.requests_append, hrequests, hquiet, List.append_nil]

def twoMatches : String :=
  "\x7b\"matches\":[\x7b\"message\":\"m\",\"offset\":0,\"length\":1,\"rule\":\x7b\"id\":\"B\"\x7d\x7d," ++
  "\x7b\"rule\":\x7b\"id\":\"A\",\"x\":[]\x7d,\"length\":1,\"offset\":0,\"message\":\"n\"," ++
  "\"replacements\":[\x7b\"value\":\"b\"\x7d]\x7d]\x7d"

def answering : Surroundings :=
  { ParserSettings.printing with serve := fun _ _ => some ⟨200, Utf8.encode twoMatches⟩ }

def installedSettings : Settings where
  parser := ParserSettings.installedSettings
  checker := { disabledRules := ["B"] }

theorem check_follows_parse_installed :
    (∃ s', installedSettings.check answering ⟨"d.adoc"⟩ (.start ParserSettings.installed) =
      .ok [⟨0, 1, "n", ["b"], "A"⟩] s') ∧
    installedSettings.check answering ⟨"missing.adoc"⟩ (.start ParserSettings.installed) =
      .error (.parse (.io .notFound none)) (.start ParserSettings.installed) := by
  have hmissing : ParserSettings.installed.lookup [] ⟨"missing.adoc"⟩ = .error .notFound := by decide +kernel
  have hurl : Url.parse? (Query.endpoint "http://localhost:8081") =
      some ⟨false, "localhost", 8081, "/v2/check"⟩ := by decide +kernel
  have hpresented : Response.findings twoMatches = .ok [⟨0, 1, "m", [], "B"⟩, ⟨0, 1, "n", ["b"], "A"⟩] := by
    decide +kernel
  have hreports : Server.findings (some ⟨200, Utf8.encode twoMatches⟩) =
      .ok [⟨0, 1, "m", [], "B"⟩, ⟨0, 1, "n", ["b"], "A"⟩] := by
    rw [Server.findings_success rfl, Utf8.decodeLossy_encode, hpresented]
    rfl
  obtain ⟨-, hparsed⟩ := check_follows_parse installedSettings answering ⟨"d.adoc"⟩
    (.start ParserSettings.installed)
  obtain ⟨hunparsed, -⟩ := check_follows_parse installedSettings answering ⟨"missing.adoc"⟩
    (.start ParserSettings.installed)
  obtain ⟨-, -, -, hfound, -⟩ := hparsed _ _ _ _ _ (ParserSettings.parse_installed _) hurl rfl rfl
  refine ⟨(hfound _).mpr ⟨_, Server.findings_ok.mp hreports, by decide⟩, ?_⟩
  exact (hunparsed _ _ (ParserSettings.parse_unopened hmissing)).1

def offering : Surroundings where
  valueOf := fun _ => none
  workingDir := []
  accountHome := none
  program := fun _ _ => ⟨[], [], .exited 0⟩
  serve := fun _ _ => some ⟨200, [106, 97, 114]⟩

def remoteSettings : Settings where
  parser := { jarUrl := "http://h/p.jar", cacheDir := some ⟨"/c"⟩ }

def onlyDocument : FileSystem := ⟨[(["d.adoc"], .file [97] false)]⟩

/-- A request can have been sent when parsing fails: the one for the parser. -/
theorem parser_fetched_in_vain :
    ¬ ∀ (c : Settings) (w : Surroundings) (input : Path) (fs : FileSystem) (e : ParseError) (s' : Session),
      c.check w input (.start fs) = .error (.parse e) s' → Event.requests s'.journal = [] := by
  intro h
  have hnone : EStateM.run' (remoteSettings.parser.parse offering ⟨"d.adoc"⟩)
      (.start onlyDocument) = none := by decide +kernel
  have hsent : Event.requests (Action.after (remoteSettings.parser.parse offering ⟨"d.adoc"⟩
      (.start onlyDocument))).journal = [⟨"GET", "/p.jar", "asciidoc-ast-rs/0.1.0", none, []⟩] := by decide +kernel
  cases hparse : remoteSettings.parser.parse offering ⟨"d.adoc"⟩
    (.start onlyDocument) with
  | ok t s' =>
    have hparsed := run'_eq_some.mpr ⟨s', hparse⟩
    cases hnone.symm.trans hparsed
  | error e s' =>
    have hquiet := h _ _ _ _ e s' (check_unparsed hparse)
    rw [hparse, Action.after, hquiet] at hsent
    cases hsent

end Settings

end AdocProse
