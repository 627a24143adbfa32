import AdocProse.CommandLine.Run
import AdocProse.Proofs.Check.DisabledRules
import AdocProse.Proofs.CommandLine.Arguments
import AdocProse.Proofs.Configuration.Precedence

/-! What a command prints. The output is all of the outline or all of the findings, behind the last stage that can
fail, and a run that fails prints nothing. -/

namespace AdocProse

namespace CommandLine

/-- A finding on its two lines: where the error is and what it is, and then the corrections. -/
def rendering (f : Finding) : String :=
  "Potential error at characters " ++ toString f.start ++ "-" ++ toString f.stop ++ ": " ++ f.message ++
    "\nSuggested correction(s): [" ++ String.intercalate ", " f.suggestions ++ "]" ++ "\n"

/-- What is printed if every stage succeeds: the outline of the tree, or all findings of rules that are permitted,
in the order in which the server presents them. -/
inductive Prints (w : Surroundings) (s : Session) (file : Path) (config : Option Path) : Command → String → Prop
  | ast {settings : Settings} {path : Option Path} {s₁ s₂ : Session} {t : Node}
      (hload : Configuration.load w config (startDir file) s = .ok (settings, path) s₁)
      (hparse : settings.parser.parse w file s₁ = .ok t s₂) : Prints w s file config .ast t.outline
  | check {settings : Settings} {path : Option Path} {s₁ s₂ : Session} {t : Node} {url : Url} {raw reply : Reply}
      {presented : List Finding}
      (hload : Configuration.load w config (startDir file) s = .ok (settings, path) s₁)
      (hparse : settings.parser.parse w file s₁ = .ok t s₂)
      (hurl : Url.parse? (Query.endpoint settings.checker.server) = some url)
      (hserve : w.serve url (settings.posted t url) = some raw) (hreceived : raw.received = some reply)
      (hreports : Server.Reports reply presented) :
      Prints w s file config .check
        (String.join ((presented.filter fun f => settings.checker.Permits f.rule).map rendering))

section

variable {w : Surroundings} {s s₁ s₂ : Session} {file : Path} {config path : Option Path} {command : Command}
  {settings : Settings} {text : String} {words : List String}

lemma text_rendering (f : Finding) : f.text ++ "\n" = rendering f := by
  unfold Finding.text rendering
  rw [Decimal.text_eq_toString, Decimal.text_eq_toString]

lemma output_ast : (∃ s₂, output w settings file .ast s₁ = .ok text s₂) ↔
    ∃ t s₂, settings.parser.parse w file s₁ = .ok t s₂ ∧ text = t.outline := by
  cases hparse : settings.parser.parse w file s₁ <;>
    simp [output, Settings.parse, Action.mapError, Functor.map, EStateM.map, hparse, eq_comm]

lemma output_check : (∃ s₂, output w settings file .check s₁ = .ok text s₂) ↔
    ∃ found s₂, settings.check w file s₁ = .ok found s₂ ∧ text = String.join (found.map rendering) := by
  cases hcheck : settings.check w file s₁ <;>
    simp [output, bind, EStateM.bind, pure, EStateM.pure, hcheck, text_rendering, eq_comm]

lemma prints_iff : Prints w s file config command text ↔ ∃ settings path s₁ s₂,
    Configuration.load w config (startDir file) s = .ok (settings, path) s₁ ∧
      output w settings file command s₁ = .ok text s₂ := by
  constructor
  · rintro (⟨hload, hparse⟩ | ⟨hload, hparse, hurl, hserve, hreceived, hreports⟩)
    · obtain ⟨s₂, houtput⟩ := output_ast.mpr ⟨_, _, hparse, rfl⟩
      exact ⟨_, _, _, s₂, hload, houtput⟩
    · obtain ⟨s₂, hcheck⟩ := Settings.check_ok_iff.mpr
        ⟨_, _, _, _, _, _, hparse, hurl, hserve, hreceived, hreports, rfl⟩
      obtain ⟨s₂, houtput⟩ := output_check.mpr ⟨_, _, hcheck, rfl⟩
      exact ⟨_, _, _, s₂, hload, houtput⟩
  · rintro ⟨settings, path, s₁, s₂, hload, houtput⟩
    cases command with
    | ast =>
      obtain ⟨t, s₂, hparse, rfl⟩ := output_ast.mp ⟨s₂, houtput⟩
      exact .ast hload hparse
    | check =>
      obtain ⟨found, s₂, hcheck, rfl⟩ := output_check.mp ⟨s₂, houtput⟩
      obtain ⟨t, s', url, raw, reply, presented, hparse, hurl, hserve, hreceived, hreports, rfl⟩ :=
        Settings.check_ok_iff.mp ⟨s₂, hcheck⟩
      exact .check hload hparse hurl hserve hreceived hreports

lemma execute_unloaded {e : ConfigurationError} (h : Configuration.load w config (startDir file) s = .error e s₁) :
    execute w command file config s = .error (failure e.text []) s₁ := by
  simp only [execute, bind, EStateM.bind, Action.mapError, h]

lemma execute_failed {e : DocumentError}
    (hload : Configuration.load w config (startDir file) s = .ok (settings, path) s₁)
    (houtput : output w settings file command s₁ = .error e s₂) :
    execute w command file config s = .error (failure (heading file command) (e.text :: sources e)) s₂ := by
  simp only [execute, bind, EStateM.bind, Action.mapError, hload, houtput]

lemma execute_printed (hload : Configuration.load w config (startDir file) s = .ok (settings, path) s₁)
    (houtput : output w settings file command s₁ = .ok text s₂) :
    execute w command file config s = .ok (success text) s₂ := by
  simp only [execute, bind, EStateM.bind, Action.mapError, hload, houtput, pure, EStateM.pure]

lemma run_cases (h : Line words command file config) (w : Surroundings) (s : Session) :
    (∃ text, Prints w s file config command text ∧ (run w words s).1 = success text) ∨
      ∃ heading causes, (run w words s).1 = failure heading causes := by
  simp only [run, ofWords?_run.mpr h]
  cases hload : Configuration.load w config (startDir file) s with
  | error e s₁ => exact .inr ⟨_, _, by rw [execute_unloaded hload]⟩
  | ok loaded s₁ =>
    cases houtput : output w loaded.1 file command s₁ with
    | error e s₂ => exact .inr ⟨_, _, by rw [execute_failed hload houtput]⟩
    | ok text s₂ =>
      refine .inl ⟨text, prints_iff.mpr ⟨_, _, _, _, hload, houtput⟩, ?_⟩
      rw [execute_printed hload houtput]

lemma run_prints (h : Line words command file config) (hprints : Prints w s file config command text) :
    (run w words s).1 = success text := by
  obtain ⟨settings, path, s₁, s₂, hload, houtput⟩ := prints_iff.mp hprints
  simp only [run, ofWords?_run.mpr h, execute_printed hload houtput]

/-- A run either succeeds and prints the whole outline or all findings, or it fails and prints nothing. It succeeds
whenever the document is parsed and checked, whatever is found. -/
theorem run_all_or_nothing (h : Line words command file config) (w : Surroundings) (s : Session) :
    let report := (run w words s).1
    (report.code = 0 ∧ Prints w s file config command report.output ∨ report.code ≠ 0 ∧ report.output = "") ∧
    (∀ text, Prints w s file config command text ↔ report = ⟨0, text, ""⟩) ∧
    (command = .check → ∀ settings path s₁ found s₂,
      Configuration.load w config (startDir file) s = .ok (settings, path) s₁ →
      settings.check w file s₁ = .ok found s₂ →
      report = ⟨0, String.join (found.map rendering), ""⟩) := by
  refine ⟨?_, fun text => ⟨run_prints h, fun hreport => ?_⟩, ?_⟩
  · rcases run_cases h w s with ⟨text, hprints, hreport⟩ | ⟨heading, causes, hreport⟩
    · rw [hreport]
      exact .inl ⟨rfl, hprints⟩
    · rw [hreport]
      exact .inr ⟨Nat.one_ne_zero, rfl⟩
  · rcases run_cases h w s with ⟨text', hprints, hreport'⟩ | ⟨heading, causes, hreport'⟩
    · obtain rfl : text' = text := congrArg Report.output (hreport'.symm.trans hreport)
      exact hprints
    · exact absurd (congrArg Report.code (hreport'.symm.trans hreport)) Nat.one_ne_zero
  · rintro rfl settings path s₁ found s₂ hload hcheck
    obtain ⟨s₂, houtput⟩ := output_check.mpr ⟨_, _, hcheck, rfl⟩
    exact run_prints h (prints_iff.mpr ⟨_, _, _, _, hload, houtput⟩)

end

def configured : FileSystem := ⟨[
  (["tmp"], .directory), (["d.adoc"], .file [97] false), (["java"], .file [0x23, 0x21] true),
  (["c.toml"], .file (Utf8.encode "parser.java = '/java'\nparser.jar = '/p.jar'") false)]⟩

def configuredSettings : Settings where
  parser := { java := some ⟨"/java"⟩, jar := some ⟨"/p.jar"⟩ }

def paragraph : Node :=
  ⟨.file, none, 0, 1, [⟨.text, some "a", 0, 1, []⟩]⟩

def threeFindings : List Finding := [
  ⟨2, 19, "typo", ["the", "then"], "TYPO"⟩, ⟨0, 2, "blank", [" "], "WHITESPACE_RULE"⟩,
  ⟨120, 120, "é", [], "TYPO"⟩]

def twoTypos : List Finding :=
  [⟨2, 19, "typo", ["the", "then"], "TYPO"⟩, ⟨120, 120, "é", [], "TYPO"⟩]

def presenting : Surroundings :=
  { ParserSettings.printing with
    program := fun _ _ => ⟨Utf8.encode paragraph.toJson, [], .exited 0⟩
    serve := fun _ _ => some ⟨200, Utf8.encode (String.ofList (Response.printed threeFindings))⟩ }

lemma load_configured (d : Path) : ∃ s₁, Configuration.load presenting (some ⟨"c.toml"⟩) d (.start configured) =
    .ok (configuredSettings, some ⟨"c.toml"⟩) s₁ ∧ s₁.files = configured := by
  apply Configuration.load_holds
  refine ⟨_, "parser.java = '/java'\nparser.jar = '/p.jar'", by decide +kernel, Utf8.decode?_encode _, ?_⟩
  decide +kernel

lemma parse_configured {s : Session} (h : s.files = configured) : ∃ s',
    configuredSettings.parser.parse presenting ⟨"d.adoc"⟩ s = .ok paragraph s' := by
  obtain ⟨files, journal⟩ := s
  obtain rfl : files = configured := h
  have hopen : ∃ found, configured.lookup presenting.workingDir ⟨"d.adoc"⟩ = .ok found :=
    ⟨(["d.adoc"], .file [97] false), by decide +kernel⟩
  have hfirst : configured.freshLocation [] ⟨"/tmp"⟩ [] = .ok ["tmp", ".tmp"] := by decide +kernel
  have hsecond : (configured.put ["tmp", ".tmp"] (.file [] false)).freshLocation [] ⟨"/tmp"⟩ [] =
      .ok ["tmp", ".tmpxxxx"] := by decide +kernel
  have hstart : ParserCommand.startable presenting ((configured.put ["tmp", ".tmp"] (.file [] false)).put
      ["tmp", ".tmpxxxx"] (.file [] false)) ⟨"/java"⟩
      (configuredSettings.parser.arguments ⟨"/p.jar"⟩ ⟨"d.adoc"⟩) = .ok ["java"] := by decide +kernel
  have htree : Node.ofJson (Utf8.encode paragraph.toJson) = .ok paragraph :=
    Node.ofJson_valid (by decide) (by decide) (by decide)
  have hjar : configuredSettings.parser.ensureJar presenting (Fetcher.http presenting) ⟨configured, journal⟩ =
      .ok ⟨"/p.jar"⟩ ⟨configured, journal⟩ := rfl
  have hjava : Java.find presenting configured configuredSettings.parser.java = .ok ⟨"/java"⟩ := rfl
  exact ⟨_, ParserSettings.parse_parsed hopen hjar hjava ⟨hfirst, hsecond, rfl⟩ hstart rfl rfl htree⟩

lemma reports_threeFindings : Server.Reports
    ⟨200, Utf8.encode (String.ofList (Response.printed threeFindings))⟩ threeFindings := by
  have hpresented : Response.findings (String.ofList (Response.printed threeFindings)) = .ok threeFindings :=
    Response.findings_printed (by decide)
  rw [← Server.findings_ok, Server.findings_success rfl, Utf8.decodeLossy_encode, hpresented]
  rfl

lemma check_configured {s : Session} (h : s.files = configured) : ∃ s',
    configuredSettings.check presenting ⟨"d.adoc"⟩ s = .ok twoTypos s' := by
  obtain ⟨s', hparse⟩ := parse_configured h
  have hurl : Url.parse? (Query.endpoint configuredSettings.checker.server) =
      some ⟨false, "localhost", 8081, "/v2/check"⟩ := by decide +kernel
  exact Settings.check_ok_iff.mpr ⟨_, s', _, _, _, _, hparse, hurl, rfl, rfl, reports_threeFindings, by decide⟩

theorem run_all_or_nothing_configured :
    (run presenting ["--config", "c.toml", "ast", "d.adoc"] (.start configured)).1 =
      ⟨0, "FILE@0..1\n  TEXT@0..1 \"a\"\n", ""⟩ ∧
    (run presenting ["check", "d.adoc", "--config=c.toml"] (.start configured)).1 =
      ⟨0, "Potential error at characters 2-19: typo\nSuggested correction(s): [the, then]\n" ++
        "Potential error at characters 120-120: é\nSuggested correction(s): []\n", ""⟩ ∧
    (run presenting ["--config", "missing.toml", "ast", "--", "d.adoc"] (.start configured)).1.code ≠ 0 ∧
    (run presenting ["--config", "missing.toml", "ast", "--", "d.adoc"] (.start configured)).1.output = "" := by
  have hast : Line ["--config", "c.toml", "ast", "d.adoc"] .ast ⟨"d.adoc"⟩ (some ⟨"c.toml"⟩) :=
    ofWords?_run.mp (by decide)
  have hcheck : Line ["check", "d.adoc", "--config=c.toml"] .check ⟨"d.adoc"⟩ (some ⟨"c.toml"⟩) :=
    ofWords?_run.mp (by decide)
  have hmissing : Line ["--config", "missing.toml", "ast", "--", "d.adoc"] .ast ⟨"d.adoc"⟩ (some ⟨"missing.toml"⟩) :=
    ofWords?_run.mp (by decide)
  obtain ⟨s₁, hload, hfiles⟩ := load_configured (startDir ⟨"d.adoc"⟩)
  obtain ⟨-, hprinted, -⟩ := run_all_or_nothing hast presenting (.start configured)
  obtain ⟨-, -, hchecked⟩ := run_all_or_nothing hcheck presenting (.start configured)
  obtain ⟨hfailed, -, -⟩ := run_all_or_nothing hmissing presenting (.start configured)
  obtain ⟨s₂, hparse⟩ := parse_configured hfiles
  obtain ⟨s₃, hfound⟩ := check_configured hfiles
  have houtline : paragraph.outline = "FILE@0..1\n  TEXT@0..1 \"a\"\n" := by decide +kernel
  have htext : String.join (twoTypos.map rendering) =
      "Potential error at characters 2-19: typo\nSuggested correction(s): [the, then]\n" ++
        "Potential error at characters 120-120: é\nSuggested correction(s): []\n" := by decide +kernel
  have hunloaded : Configuration.load presenting (some ⟨"missing.toml"⟩) (startDir ⟨"d.adoc"⟩) (.start configured) =
      .error (.io .notFound) (.start configured) :=
    Configuration.load_unusable (.missing (by decide +kernel))
  refine ⟨(hprinted _).mp (houtline ▸ .ast hload hparse), htext ▸ hchecked rfl _ _ _ _ _ hload hfound, ?_⟩
  rcases hfailed with ⟨-, hprints⟩ | hfailed
  · obtain ⟨settings, path, s', s'', hload, -⟩ := prints_iff.mp hprints
    rw [hunloaded] at hload
    cases hload
  · exact hfailed

end CommandLine

end AdocProse
