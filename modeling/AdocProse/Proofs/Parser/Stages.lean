import AdocProse.Proofreading
import AdocProse.Proofs.Parser.Provision
import AdocProse.Proofs.Tree.RoundTrip
import AdocProse.Proofs.Tree.Spans

/-! A document is parsed in stages, of which the first one that fails gives the error. What a later stage
would have done is not done. -/

namespace AdocProse

open FileSystem

variable {w : Surroundings}

def Action.after {ε α : Type} : EStateM.Result ε Session α → Session
  | .ok _ s => s
  | .error _ s => s

lemma run'_eq_some {ε σ α : Type} {x : EStateM ε σ α} {s : σ} {a : α} :
    EStateM.run' x s = some a ↔ ∃ s', x s = .ok a s' := by
  unfold EStateM.run' EStateM.run
  cases x s <;> simp

namespace Event

def request? : Event → Option Request
  | .sent r => some r
  | _ => none

def start? : Event → Option (Location × List String)
  | .started l arguments => some (l, arguments)
  | _ => none

def requests (events : List Event) : List Request :=
  events.filterMap request?

def starts (events : List Event) : List (Location × List String) :=
  events.filterMap start?

lemma requests_append (events events' : List Event) :
    requests (events ++ events') = requests events ++ requests events' :=
  List.filterMap_append

lemma starts_append (events events' : List Event) : starts (events ++ events') = starts events ++ starts events' :=
  List.filterMap_append

end Event

open Event

/-- The request for a file. -/
def fileRequest (url : Url) : Request :=
  ⟨"GET", url.target, "asciidoc-ast-rs/0.1.0", none, []⟩

/-- What asking for a file brings: the body of the reply, or nothing if no server replies or if the reply is a
failure. -/
inductive Delivers (w : Surroundings) (address : String) : Delivery → Prop where
  | unanswered (h : ∀ url, Url.parse? address = some url → w.serve url (fileRequest url) = none) :
    Delivers w address ⟨[], some .other, []⟩
  | refused {url raw} (hurl : Url.parse? address = some url) (hserve : w.serve url (fileRequest url) = some raw)
    (hreply : ∀ reply, raw.received = some reply → 400 ≤ reply.status ∧ reply.status < 600) :
    Delivers w address ⟨[], some .other, [.sent (fileRequest url)]⟩
  | body {url raw reply} (hurl : Url.parse? address = some url)
    (hserve : w.serve url (fileRequest url) = some raw) (hreply : raw.received = some reply)
    (hstatus : ¬(400 ≤ reply.status ∧ reply.status < 600)) :
    Delivers w address ⟨reply.body, none, [.sent (fileRequest url)]⟩

lemma http_received {address : String} {url : Url} {raw : Reply} (hurl : Url.parse? address = some url)
    (hserve : w.serve url (fileRequest url) = some raw) : Fetcher.http w address =
      match raw.received with
      | none => ⟨[], some .other, [.sent (fileRequest url)]⟩
      | some reply => if 400 ≤ reply.status ∧ reply.status < 600
        then ⟨[], some .other, [.sent (fileRequest url)]⟩ else ⟨reply.body, none, [.sent (fileRequest url)]⟩ := by
  have hrequest : Fetcher.request url.target = fileRequest url := rfl
  rw [Fetcher.http, Surroundings.exchange]
  simp only [hurl, hrequest, hserve]
  cases raw.received with
  | none => rfl
  | some reply => simp [Reply.isFailure]

lemma Delivers.eq_http {address : String} {d : Delivery} (h : Delivers w address d) :
    d = Fetcher.http w address := by
  cases h with
  | unanswered h =>
    rw [Fetcher.http, Surroundings.exchange]
    cases hurl : Url.parse? address with
    | none => rfl
    | some url =>
      have hserve : w.serve url (Fetcher.request url.target) = none := h url hurl
      simp only [hserve]
  | refused hurl hserve hreply =>
    rw [http_received hurl hserve]
    split
    · rfl
    · next reply hreceived => rw [if_pos (hreply reply hreceived)]
  | body hurl hserve hreply hstatus => simp only [http_received hurl hserve, hreply, if_neg hstatus]

lemma Delivers.unique {address : String} {d d' : Delivery} (h : Delivers w address d) (h' : Delivers w address d') :
    d = d' :=
  h.eq_http.trans h'.eq_http.symm

lemma exists_delivers (w : Surroundings) (address : String) : ∃ d, Delivers w address d := by
  by_cases hserved : ∀ url, Url.parse? address = some url → w.serve url (fileRequest url) = none
  · exact ⟨_, .unanswered hserved⟩
  push Not at hserved
  obtain ⟨url, hurl, hserve⟩ := hserved
  obtain ⟨raw, hserve⟩ := Option.ne_none_iff_exists'.mp hserve
  by_cases hrefused : ∀ reply, raw.received = some reply → 400 ≤ reply.status ∧ reply.status < 600
  · exact ⟨_, .refused hurl hserve hrefused⟩
  push Not at hrefused
  obtain ⟨reply, hreply, hstatus⟩ := hrefused
  exact ⟨_, .body hurl hserve hreply (by omega)⟩

lemma http_delivers (w : Surroundings) (address : String) : Delivers w address (Fetcher.http w address) := by
  obtain ⟨d, hdelivers⟩ := exists_delivers w address
  rwa [← hdelivers.eq_http]

/-- How a program that does not end with code 0 is reported: with its code, or with none if a signal killed
it. -/
inductive Unsuccessful : Ending → Option Nat → Prop where
  | exited {code} (h : code ≠ 0) : Unsuccessful (.exited code) (some code)
  | killed {signal} : Unsuccessful (.killed signal) none

lemma unsuccessful_iff {ending : Ending} {code : Option Nat} :
    Unsuccessful ending code ↔ ending ≠ .exited 0 ∧ ending.code? = code := by
  constructor
  · rintro (⟨h⟩ | _)
    · exact ⟨by simpa using h, rfl⟩
    · exact ⟨by simp, rfl⟩
  · rintro ⟨h, rfl⟩
    cases ending with
    | exited code => exact .exited fun hcode => h (congrArg Ending.exited hcode)
    | killed signal => exact .killed

namespace ParserCommand

/-- The second file system has two empty files more, at places in the directory where there was nothing. -/
def Captures (w : Surroundings) (dir : Path) (fs : FileSystem) (output errors : Location) (fs' : FileSystem) :
    Prop :=
  fs.freshLocation w.workingDir dir [] = .ok output ∧
  (fs.put output (.file [] false)).freshLocation w.workingDir dir [] = .ok errors ∧
  fs' = (fs.put output (.file [] false)).put errors (.file [] false)

/-- The place of the program that can be started with the given arguments. -/
def startable (w : Surroundings) (fs : FileSystem) (program : Path) (arguments : List String) :
    Except IoKind Location :=
  if (program.text :: arguments).all isPassable then locate w fs program else .error .invalidInput

def started (s : Session) (l : Location) (arguments : List String) : Session :=
  ⟨s.files, s.journal ++ [.started l arguments]⟩

section

variable {c : ParserCommand} {dir input : Path} {s : Session} {fs fs' : FileSystem}
  {output errors l : Location} {e : IoKind}

lemma captures_of_fresh (h : fs.freshLocation w.workingDir dir [] = .ok output) :
    ∃ errors fs', Captures w dir fs output errors fs' := by
  -- The first file takes away nothing on the way to the directory.
  obtain ⟨errors, herrors⟩ := freshLocation_grows (put_grows (e := .file [] false) (freshLocation_ok h).1) h
  exact ⟨errors, _, h, herrors, rfl⟩

lemma Captures.apart (h : Captures w dir fs output errors fs') :
    output ≠ [] ∧ errors ≠ [] ∧ errors ≠ output := by
  obtain ⟨houtput, herrors, rfl⟩ := h
  obtain ⟨-, name, hname, -⟩ := freshLocation_ok houtput
  obtain ⟨hfree, name', hname', -⟩ := freshLocation_ok herrors
  have hne : output ≠ [] := by simp [hname]
  refine ⟨hne, by simp [hname'], ?_⟩
  rintro rfl
  rw [get?_put_self hne] at hfree
  cases hfree

lemma Captures.removed (h : Captures w dir fs output errors fs') : (fs'.erase errors).erase output = fs := by
  obtain ⟨hne, hne', -⟩ := h.apart
  obtain ⟨houtput, herrors, rfl⟩ := h
  rw [erase_put, erase_new hne' (freshLocation_ok herrors).1, erase_put,
    erase_new hne (freshLocation_ok houtput).1]

lemma Captures.written_removed (h : Captures w dir fs output errors fs') (out err : Entry) :
    (((fs'.put output out).put errors err).erase errors).erase output = fs := by
  rw [erase_put, erase_put_ne h.apart.2.2, erase_put]
  exact h.removed

lemma run_uncaptured (h : s.files.freshLocation w.workingDir (c.captureDir w) [] = .error e) :
    c.run w input s = .error (.io e (some ((c.captureDir w).join (freshName [])))) s := by
  simp only [run, captureFile, bind, EStateM.bind, Action.files, h]
  rfl

lemma run_captured (h : Captures w (c.captureDir w) s.files output errors fs) :
    c.run w input s = releasing output (releasing errors (do
      let ending ← c.launch w input output errors
      result ending output errors)) ⟨fs, s.journal⟩ := by
  obtain ⟨houtput, herrors, rfl⟩ := h
  simp only [run, captureFile, bind, EStateM.bind, Action.files, houtput, Action.setFiles, pure, EStateM.pure,
    releasing, herrors]

lemma launch_unstarted (h : startable w s.files c.program (c.arguments input) = .error e) :
    c.launch w input output errors s = .error (.spawnFailed c.program e) s := by
  simp only [launch, bind, EStateM.bind, Action.files]
  rw [startable] at h
  split at h
  · next hpassable =>
    simp only [if_pos hpassable, h]
    rfl
  · next hpassable =>
    cases h
    rw [if_neg hpassable]
    rfl

lemma launch_started (h : startable w s.files c.program (c.arguments input) = .ok l) :
    c.launch w input output errors s = .ok (w.program l (c.arguments input)).ending
      ⟨(s.files.put output (.file (w.program l (c.arguments input)).output false)).put errors
        (.file (w.program l (c.arguments input)).errors false),
        s.journal ++ [.started l (c.arguments input)]⟩ := by
  simp only [launch, bind, EStateM.bind, Action.files]
  rw [startable] at h
  split at h
  · next hpassable =>
    simp only [if_pos hpassable, h, Action.record, write, bind, EStateM.bind, Action.files, Action.setFiles, pure,
      EStateM.pure]
  · cases h

lemma content_eq {bytes : List UInt8} {executable : Bool} (h : s.files.get? l = some (.file bytes executable)) :
    content l s = .ok bytes s := by
  simp only [content, bind, EStateM.bind, Action.files, h, pure, EStateM.pure]

lemma result_exited {bytes : List UInt8} (h : content output s = .ok bytes s) :
    result (.exited 0) output errors s =
      Action.ofExcept ((Node.ofJson bytes).mapError ParseError.tree) s := by
  simp only [result, if_true, bind, EStateM.bind, h]

lemma result_failed {ending : Ending} {bytes : List UInt8} (hending : ending ≠ .exited 0)
    (h : content errors s = .ok bytes s) : result ending output errors s =
      .error (.parserFailed ending.code? (Utf8.decodeLossy bytes)) s := by
  simp only [result, if_neg hending, bind, EStateM.bind, h]
  rfl

lemma run_unstarted (h : Captures w (c.captureDir w) s.files output errors fs)
    (hstart : startable w fs c.program (c.arguments input) = .error e) :
    c.run w input s = .error (.spawnFailed c.program e) s := by
  have hlaunch : c.launch w input output errors ⟨fs, s.journal⟩ = _ := launch_unstarted hstart
  rw [run_captured h]
  simp only [releasing, bind, EStateM.bind, hlaunch, h.removed]

lemma run_started (h : Captures w (c.captureDir w) s.files output errors fs)
    (hstart : startable w fs c.program (c.arguments input) = .ok l) {outcome : Outcome}
    (houtcome : w.program l (c.arguments input) = outcome) :
    c.run w input s = if outcome.ending = .exited 0
      then Action.ofExcept ((Node.ofJson outcome.output).mapError ParseError.tree)
        (started s l (c.arguments input))
      else .error (.parserFailed outcome.ending.code? (Utf8.decodeLossy outcome.errors))
        (started s l (c.arguments input)) := by
  obtain ⟨hne, hne', hapart⟩ := h.apart
  have hlaunch : c.launch w input output errors ⟨fs, s.journal⟩ = _ := launch_started hstart
  rw [houtcome] at hlaunch
  have hremoved := h.written_removed (.file outcome.output false) (.file outcome.errors false)
  rw [run_captured h]
  simp only [releasing, bind, EStateM.bind, hlaunch]
  -- What the program wrote is still there when it is read, and nothing of it is there afterwards.
  by_cases hending : outcome.ending = .exited 0
  · rw [if_pos hending, hending, result_exited (content_eq ((get?_put_ne hapart.symm).trans (get?_put_self hne)))]
    cases Node.ofJson outcome.output <;> simp only [Except.mapError, Action.ofExcept, hremoved, started]
  · rw [if_neg hending, result_failed hending (content_eq (get?_put_self hne'))]
    simp only [hremoved, started]

end

end ParserCommand

namespace ParserSettings

open ParserCommand (Captures startable started)

/-- How the parser is found: it is at the given place, or else at that of the artifact, where it is already
or is downloaded to. -/
inductive Provides (c : ParserSettings) (w : Surroundings) (s : Session) :
    EStateM.Result ParseError Session Path → Prop where
  | given {jar} (hjar : c.jar = some jar) : Provides c w s (.ok jar s)
  | nowhere (hjar : c.jar = none) (hdir : c.cacheDir = none) (hdefault : defaultCacheDir? w = none) :
    Provides c w s (.error .noCacheDir s)
  | found {a fetch jar s'} (hjar : c.jar = none) (hartifact : c.artifact w = .ok a)
    (hfetch : Delivers w c.jarUrl (fetch a.url)) (hcall : Artifact.AllOrNothing w a ⟨fetch, s, .ok jar, s'⟩) :
    Provides c w s (.ok jar s')
  | failed {a fetch e s'} (hjar : c.jar = none) (hartifact : c.artifact w = .ok a)
    (hfetch : Delivers w c.jarUrl (fetch a.url)) (hcall : Artifact.AllOrNothing w a ⟨fetch, s, .error e, s'⟩) :
    Provides c w s (.error e s')

/-- The parser is not given, and it is not at the place of the artifact either. -/
structure Missing (c : ParserSettings) (w : Surroundings) (s : Session) (a : Artifact) : Prop where
  jar : c.jar = none
  artifact : c.artifact w = .ok a
  absent : s.files.isFile w.workingDir a.path = false

/-- The directory for the artifact is there or can be made, and it can take a temporary file. -/
def Prepares (a : Artifact) (w : Surroundings) (fs : FileSystem) : Prop :=
  ∃ fs' tmp, fs.makeDirectories w.workingDir a.parent = (.ok (), fs') ∧
    fs'.freshLocation w.workingDir a.parent [Artifact.fileName a.path.text] = .ok tmp

/-- The document can be opened, and the parser and the virtual machine are found. The session is the one after
the parser was found. -/
structure Ready (c : ParserSettings) (w : Surroundings) (input : Path) (s : Session) (jar java : Path)
    (s' : Session) : Prop where
  opened : ∃ found, s.files.lookup w.workingDir input = .ok found
  provided : Provides c w s (.ok jar s')
  java : Java.find w s'.files c.java = .ok java

def arguments (c : ParserSettings) (jar input : Path) : List String :=
  c.jvmArgs ++ ["-jar", jar.text, input.text]

def command (c : ParserSettings) (java jar : Path) : ParserCommand :=
  ⟨java, c.jvmArgs, jar, c.tempDir⟩

lemma command_arguments (c : ParserSettings) (java jar input : Path) :
    (c.command java jar).arguments input = c.arguments jar input := rfl

def captureDir (c : ParserSettings) (w : Surroundings) : Path :=
  c.tempDir.getD w.scratchDir

/-- Everything before the start succeeds, and the program at the place is started. -/
inductive Starts (c : ParserSettings) (w : Surroundings) (input : Path) (s : Session) :
    Location → List String → Session → Prop where
  | start {jar java s' output errors fs l} (hready : Ready c w input s jar java s')
    (hcaptures : Captures w (c.captureDir w) s'.files output errors fs)
    (hstart : startable w fs java (c.arguments jar input) = .ok l) :
    Starts c w input s l (c.arguments jar input) s'

/-- How parsing ends, one case for each stage that can be the first one to fail. -/
inductive Staged (c : ParserSettings) (w : Surroundings) (input : Path) (s : Session) :
    EStateM.Result ParseError Session Node → Prop where
  | unopened {e} (hopen : s.files.lookup w.workingDir input = .error e) :
    Staged c w input s (.error (.io e none) s)
  | unprovided {found e s'} (hopen : s.files.lookup w.workingDir input = .ok found)
    (hjar : Provides c w s (.error e s')) : Staged c w input s (.error e s')
  | withoutJava {found jar s'} (hopen : s.files.lookup w.workingDir input = .ok found)
    (hjar : Provides c w s (.ok jar s')) (hjava : Java.find w s'.files c.java = .error .javaNotFound) :
    Staged c w input s (.error .javaNotFound s')
  | uncaptured {jar java s' e} (hready : Ready c w input s jar java s')
    (hcapture : s'.files.freshLocation w.workingDir (c.captureDir w) [] = .error e) :
    Staged c w input s (.error (.io e (some ((c.captureDir w).join (freshName [])))) s')
  | unstarted {jar java s' output errors fs e} (hready : Ready c w input s jar java s')
    (hcaptures : Captures w (c.captureDir w) s'.files output errors fs)
    (hstart : startable w fs java (c.arguments jar input) = .error e) :
    Staged c w input s (.error (.spawnFailed java e) s')
  | unsuccessful {l arguments s' code} (hstart : Starts c w input s l arguments s')
    (hending : Unsuccessful (w.program l arguments).ending code) :
    Staged c w input s (.error (.parserFailed code (Utf8.decodeLossy (w.program l arguments).errors))
      (started s' l arguments))
  | undecoded {l arguments s' e} (hstart : Starts c w input s l arguments s')
    (hending : (w.program l arguments).ending = .exited 0)
    (htree : Node.ofJson (w.program l arguments).output = .error e) :
    Staged c w input s (.error (.tree e) (started s' l arguments))
  | parsed {l arguments s' t} (hstart : Starts c w input s l arguments s')
    (hending : (w.program l arguments).ending = .exited 0)
    (htree : Node.ofJson (w.program l arguments).output = .ok t) :
    Staged c w input s (.ok t (started s' l arguments))

section

variable {c : ParserSettings} {input jar java : Path} {s s' : Session} {fs fs' : FileSystem}
  {output errors l : Location} {arguments : List String} {e : IoKind} {a : Artifact} {d : Delivery}

lemma artifact_url {a : Artifact} (h : c.artifact w = .ok a) : a.url = c.jarUrl := by
  rw [artifact] at h
  split at h <;> cases h <;> rfl

lemma ensureJar_provides (c : ParserSettings) (w : Surroundings) (s : Session) :
    Provides c w s (c.ensureJar w (Fetcher.http w) s) := by
  cases hjar : c.jar with
  | some jar =>
    simp only [ensureJar, hjar]
    exact .given hjar
  | none =>
    cases hartifact : c.artifact w with
    | error e =>
      simp only [ensureJar, hjar, hartifact, Action.ofExcept, bind, EStateM.bind]
      rw [artifact] at hartifact
      split at hartifact
      · cases hartifact
      · cases hartifact
      · next hdir hdefault =>
        cases hartifact
        exact .nowhere hjar hdir hdefault
    | ok a =>
      simp only [ensureJar, hjar, hartifact, Action.ofExcept, bind, EStateM.bind]
      have hcall := Artifact.call_cases w a (Fetcher.http w) s
      have hfetch : Delivers w c.jarUrl (Fetcher.http w a.url) := artifact_url hartifact ▸ http_delivers w _
      rw [Artifact.call] at hcall
      cases hensure : a.ensure w (Fetcher.http w) s with
      | ok jar s' =>
        rw [hensure] at hcall
        exact .found hjar hartifact hfetch hcall
      | error e s' =>
        rw [hensure] at hcall
        exact .failed hjar hartifact hfetch hcall

lemma Missing.provided (h : Missing c w s a) (hdelivers : Delivers w c.jarUrl d)
    (hprovides : Provides c w s (.ok jar s')) : jar = a.path ∧ d.failure = none ∧
      s'.files.read w.workingDir a.path = .ok d.bytes ∧
      s'.journal = s.journal ++ a.beginning :: d.events ++ [a.ending] := by
  cases hprovides with
  | given hjar =>
    rw [h.jar] at hjar
    cases hjar
  | found _ hartifact hfetch hcall =>
    rw [h.artifact] at hartifact
    cases hartifact
    have hfetched := hdelivers.unique hfetch
    subst hfetched
    cases hcall with
    | cached hcached => exact absurd (h.absent.symm.trans hcached) Bool.false_ne_true
    | failed _ hresult => cases hresult
    | downloaded _ hresult hcomplete hjournal hfound =>
      cases hresult
      exact ⟨rfl, hcomplete, hfound, hjournal⟩

lemma Missing.stopped (h : Missing c w s a) (hdelivers : Delivers w c.jarUrl d) {cause : IoKind}
    (hfailure : d.failure = some cause) {e : ParseError} (hprovides : Provides c w s (.error e s')) :
    ∃ cause', e = .download c.jarUrl a.path cause' ∧ Adds (OnTheWay w.workingDir a.parent) s.files s'.files ∧
      (Prepares a w s.files → cause' = cause ∧ s'.journal = s.journal ++ a.beginning :: d.events) := by
  cases hprovides with
  | nowhere _ hdir hdefault =>
    have hartifact := h.artifact
    simp only [ParserSettings.artifact, hdir, hdefault] at hartifact
    cases hartifact
  | failed _ hartifact hfetch hcall =>
    rw [h.artifact] at hartifact
    cases hartifact
    have hfetched := hdelivers.unique hfetch
    subst hfetched
    cases hcall with
    | cached _ hresult | downloaded _ hresult => cases hresult
    | failed _ hresult hstep hjournal hfiles =>
      cases hresult
      refine ⟨_, by rw [artifact_url h.artifact], hfiles, ?_⟩
      rintro ⟨fs, tmp, hmake, htmp⟩
      dsimp only at hstep
      -- Neither of the steps before the request has failed.
      cases hstep with
      | directories hmake' => cases hmake.symm.trans hmake'
      | temporary hmake' htmp' =>
        cases hmake.symm.trans hmake'
        cases htmp.symm.trans htmp'
      | fetching _ _ hfailed => exact ⟨Option.some.inj (hfailed.symm.trans hfailure), hjournal⟩
      | moving _ _ hfetched => cases hfetched.symm.trans hfailure

lemma Missing.unprovided (h : Missing c w s a) (hdelivers : Delivers w c.jarUrl d) {cause : IoKind}
    (hfailure : d.failure = some cause) : ∃ cause' s',
      c.ensureJar w (Fetcher.http w) s = .error (.download c.jarUrl a.path cause') s' ∧
      Adds (OnTheWay w.workingDir a.parent) s.files s'.files ∧
      (Prepares a w s.files → cause' = cause ∧ s'.journal = s.journal ++ a.beginning :: d.events) := by
  have hprovides := ensureJar_provides c w s
  cases hjar : c.ensureJar w (Fetcher.http w) s with
  | ok jar s' =>
    rw [hjar] at hprovides
    cases (h.provided hdelivers hprovides).2.1.symm.trans hfailure
  | error e s' =>
    rw [hjar] at hprovides
    obtain ⟨cause', rfl, hends⟩ := h.stopped hdelivers hfailure hprovides
    exact ⟨cause', s', rfl, hends⟩

lemma find_error {e : ParseError} (h : Java.find w fs c.java = .error e) : e = .javaNotFound := by
  cases hjava : c.java with
  | some path =>
    rw [hjava] at h
    cases h
  | none =>
    simp only [hjava, Java.find] at h
    split at h
    · cases h
    · cases h
      rfl

lemma parse_unopened (hopen : s.files.lookup w.workingDir input = .error e) :
    c.parse w input s = .error (.io e none) s := by
  simp only [parse, bind, EStateM.bind, Action.files, hopen]
  rfl

lemma parse_opened {found : Location × Entry} (hopen : s.files.lookup w.workingDir input = .ok found) :
    c.parse w input s = (do
      let jar ← c.ensureJar w (Fetcher.http w)
      let java ← Action.ofExcept (Java.find w (← Action.files) c.java)
      (c.command java jar).run w input : Action ParseError Node) s := by
  simp only [parse, command, bind, EStateM.bind, Action.files, hopen]

lemma parse_ready {found : Location × Entry} (hopen : s.files.lookup w.workingDir input = .ok found)
    (hjar : c.ensureJar w (Fetcher.http w) s = .ok jar s') (hjava : Java.find w s'.files c.java = .ok java) :
    c.parse w input s = (c.command java jar).run w input s' := by
  simp only [parse_opened hopen, bind, EStateM.bind, Action.files, hjar, hjava, Action.ofExcept]

lemma parse_parsed (hopen : ∃ found, s.files.lookup w.workingDir input = .ok found)
    (hjar : c.ensureJar w (Fetcher.http w) s = .ok jar s') (hjava : Java.find w s'.files c.java = .ok java)
    (hcaptures : Captures w (c.captureDir w) s'.files output errors fs)
    (hstart : startable w fs java (c.arguments jar input) = .ok l) {outcome : Outcome}
    (houtcome : w.program l (c.arguments jar input) = outcome) (hending : outcome.ending = .exited 0) {t : Node}
    (htree : Node.ofJson outcome.output = .ok t) :
    c.parse w input s = .ok t (started s' l (c.arguments jar input)) := by
  obtain ⟨found, hopen⟩ := hopen
  have hrun := ParserCommand.run_started (c := c.command java jar) hcaptures hstart houtcome
  rw [parse_ready hopen hjar hjava, hrun, if_pos hending, htree, command_arguments]
  rfl

lemma parse_unprovided {found : Location × Entry} {e : ParseError}
    (hopen : s.files.lookup w.workingDir input = .ok found)
    (hjar : c.ensureJar w (Fetcher.http w) s = .error e s') : c.parse w input s = .error e s' := by
  simp only [parse_opened hopen, bind, EStateM.bind, hjar]

lemma parse_withoutJava {found : Location × Entry} {e : ParseError}
    (hopen : s.files.lookup w.workingDir input = .ok found)
    (hjar : c.ensureJar w (Fetcher.http w) s = .ok jar s') (hjava : Java.find w s'.files c.java = .error e) :
    c.parse w input s = .error e s' := by
  simp only [parse_opened hopen, bind, EStateM.bind, Action.files, hjar, hjava, Action.ofExcept]

lemma run_staged (hready : Ready c w input s jar java s') :
    Staged c w input s ((c.command java jar).run w input s') := by
  cases hcapture : s'.files.freshLocation w.workingDir (c.captureDir w) [] with
  | error e =>
    have hrun : (c.command java jar).run w input s' = _ :=
      ParserCommand.run_uncaptured (c := c.command java jar) hcapture
    rw [hrun]
    exact .uncaptured hready hcapture
  | ok output =>
    obtain ⟨errors, fs, hcaptures⟩ := ParserCommand.captures_of_fresh hcapture
    cases hstart : startable w fs java (c.arguments jar input) with
    | error e =>
      have hrun := ParserCommand.run_unstarted (c := c.command java jar) hcaptures hstart
      rw [hrun]
      exact .unstarted hready hcaptures hstart
    | ok l =>
      have hstarts := Starts.start hready hcaptures hstart
      have hrun := ParserCommand.run_started (c := c.command java jar) hcaptures hstart rfl
      rw [hrun, command_arguments]
      by_cases hending : (w.program l (c.arguments jar input)).ending = .exited 0
      · rw [if_pos hending]
        cases htree : Node.ofJson (w.program l (c.arguments jar input)).output with
        | error e => exact .undecoded hstarts hending htree
        | ok t => exact .parsed hstarts hending htree
      · rw [if_neg hending]
        exact .unsuccessful hstarts (unsuccessful_iff.mpr ⟨hending, rfl⟩)

lemma parse_staged (c : ParserSettings) (w : Surroundings) (input : Path) (s : Session) :
    Staged c w input s (c.parse w input s) := by
  cases hopen : s.files.lookup w.workingDir input with
  | error e =>
    rw [parse_unopened hopen]
    exact .unopened hopen
  | ok found =>
    have hprovides := ensureJar_provides c w s
    cases hjar : c.ensureJar w (Fetcher.http w) s with
    | error e s' =>
      rw [hjar] at hprovides
      rw [parse_unprovided hopen hjar]
      exact .unprovided hopen hprovides
    | ok jar s' =>
      rw [hjar] at hprovides
      cases hjava : Java.find w s'.files c.java with
      | error e =>
        rw [parse_withoutJava hopen hjar hjava]
        cases find_error hjava
        exact .withoutJava hopen hprovides hjava
      | ok java =>
        rw [parse_ready hopen hjar hjava]
        exact run_staged ⟨⟨found, hopen⟩, hprovides, hjava⟩

/-- The requests that parsing can send: one to the address of the parser at most. -/
def Fetched (c : ParserSettings) (requests : List Request) : Prop :=
  requests = [] ∨ ∃ url, Url.parse? c.jarUrl = some url ∧ requests = [fileRequest url]

def Fetches (c : ParserSettings) (events : List Event) : Prop :=
  Event.starts events = [] ∧ c.Fetched (Event.requests events)

lemma fetches_delivers {d : Delivery} (h : Delivers w c.jarUrl d) : c.Fetches d.events := by
  cases h with
  | unanswered => exact ⟨rfl, .inl rfl⟩
  | refused hurl | body hurl => exact ⟨rfl, .inr ⟨_, hurl, rfl⟩⟩

lemma fetches_informed {events : List Event} (h : c.Fetches events) (text text' : String) :
    c.Fetches (.info text :: events) ∧ c.Fetches (.info text :: events ++ [.info text']) := by
  have hrequests : Event.requests (.info text :: events ++ [.info text']) = Event.requests events := by
    rw [Event.requests_append]
    exact List.append_nil _
  have hstarts : Event.starts (.info text :: events ++ [.info text']) = Event.starts events := by
    rw [Event.starts_append]
    exact List.append_nil _
  refine ⟨h, ?_⟩
  rw [Fetches, hrequests, hstarts]
  exact h

lemma fails_fetches {a : Artifact} {fetch : Fetcher} (hfetch : Delivers w c.jarUrl (fetch a.url))
    {events : List Event} {cause : IoKind} (h : Artifact.Fails w a fetch fs events cause) : c.Fetches events := by
  cases h with
  | directories | temporary => exact ⟨rfl, .inl rfl⟩
  | fetching | moving => exact fetches_delivers hfetch

lemma call_journal {a : Artifact} {fetch : Fetcher} (hfetch : Delivers w c.jarUrl (fetch a.url))
    {result : Except ParseError Path} (h : Artifact.AllOrNothing w a ⟨fetch, s, result, s'⟩) :
    ∃ events, s'.journal = s.journal ++ events ∧ c.Fetches events := by
  cases h with
  | cached _ _ hafter =>
    obtain rfl : s' = s := hafter
    exact ⟨[], (List.append_nil _).symm, rfl, .inl rfl⟩
  | failed _ _ hstep hjournal =>
    dsimp only at hstep
    exact ⟨_, hjournal, (fetches_informed (fails_fetches hfetch hstep) _ "").1⟩
  | downloaded _ _ _ hjournal =>
    simp only [List.append_assoc] at hjournal
    exact ⟨_, hjournal, (fetches_informed (fetches_delivers hfetch) _ _).2⟩

lemma Provides.journal {r : EStateM.Result ParseError Session Path} (h : Provides c w s r) :
    ∃ events, (Action.after r).journal = s.journal ++ events ∧ c.Fetches events := by
  cases h with
  | given | nowhere => exact ⟨[], (List.append_nil _).symm, rfl, .inl rfl⟩
  | found _ _ hfetch hcall | failed _ _ hfetch hcall => exact call_journal hfetch hcall

/-- What parsing leaves in the journal: the start of one program at most, before which everything succeeded, and
one request at most, to the address of the parser. -/
structure Leaves (c : ParserSettings) (w : Surroundings) (input : Path) (s : Session) (events : List Event) :
    Prop where
  starts : Event.starts events = [] ∨ ∃ l arguments s', Starts c w input s l arguments s' ∧
    Event.starts events = [(l, arguments)]
  requests : c.Fetched (Event.requests events)

lemma Provides.leaves {r : EStateM.Result ParseError Session Path} (h : Provides c w s r) :
    ∃ events, (Action.after r).journal = s.journal ++ events ∧ Leaves c w input s events := by
  obtain ⟨events, hjournal, hstarts, hrequests⟩ := h.journal
  exact ⟨events, hjournal, .inl hstarts, hrequests⟩

lemma Starts.provided (h : Starts c w input s l arguments s') : ∃ jar, Provides c w s (.ok jar s') := by
  cases h with
  | start hready => exact ⟨_, hready.provided⟩

lemma Starts.leaves (h : Starts c w input s l arguments s') :
    ∃ events, (started s' l arguments).journal = s.journal ++ events ∧ Leaves c w input s events := by
  obtain ⟨jar, hjar⟩ := h.provided
  obtain ⟨events, hjournal, hstarts, hrequests⟩ := hjar.journal
  have hsent : Event.requests (events ++ [.started l arguments]) = Event.requests events := by
    rw [Event.requests_append]
    exact List.append_nil _
  have hstarted : Event.starts (events ++ [.started l arguments]) = [(l, arguments)] := by
    rw [Event.starts_append, hstarts]
    rfl
  rw [Action.after] at hjournal
  refine ⟨events ++ [.started l arguments], ?_, .inr ⟨l, arguments, s', h, hstarted⟩, hsent ▸ hrequests⟩
  rw [ParserCommand.started, hjournal, List.append_assoc]

lemma Staged.leaves {r : EStateM.Result ParseError Session Node} (h : Staged c w input s r) :
    ∃ events, (Action.after r).journal = s.journal ++ events ∧ Leaves c w input s events := by
  cases h with
  | unopened => exact ⟨[], (List.append_nil _).symm, .inl rfl, .inl rfl⟩
  | unprovided _ hjar | withoutJava _ hjar => exact hjar.leaves
  | uncaptured hready | unstarted hready => exact hready.provided.leaves
  | unsuccessful hstart | undecoded hstart | parsed hstart => exact hstart.leaves

end

/-- Parsing ends as its first stage that fails has it, with what the stages before did and nothing else: a
document that cannot be opened changes nothing, a program is started once at most, and a tree is what a
program wrote that ended with code 0. If the parser is missing, one request is sent for it: parsing ends there
if it brings nothing, and whatever comes later finds the body of the reply at the place of the parser. -/
theorem parse_stages (c : ParserSettings) (w : Surroundings) (input : Path) (s : Session) :
    Staged c w input s (c.parse w input s) ∧
    (∀ e, s.files.lookup w.workingDir input = .error e → c.parse w input s = .error (.io e none) s) ∧
    (∃ events, (Action.after (c.parse w input s)).journal = s.journal ++ events ∧ Leaves c w input s events) ∧
    (∀ t s', c.parse w input s = .ok t s' → ∃ l arguments before, Starts c w input s l arguments before ∧
      s' = started before l arguments ∧ (w.program l arguments).ending = .exited 0 ∧
      Node.ofJson (w.program l arguments).output = .ok t ∧ t.validate = .ok ()) ∧
    ∀ a d found, s.files.lookup w.workingDir input = .ok found → Missing c w s a → Delivers w c.jarUrl d →
      (∀ cause, d.failure = some cause → ∃ cause' s',
        c.parse w input s = .error (.download c.jarUrl a.path cause') s' ∧
        Adds (OnTheWay w.workingDir a.parent) s.files s'.files ∧
        (Prepares a w s.files → cause' = cause ∧ s'.journal = s.journal ++ a.beginning :: d.events)) ∧
      ∀ jar s', Provides c w s (.ok jar s') → jar = a.path ∧ d.failure = none ∧
        s'.files.read w.workingDir a.path = .ok d.bytes ∧
        s'.journal = s.journal ++ a.beginning :: d.events ++ [a.ending] := by
  have hstaged := parse_staged c w input s
  refine ⟨hstaged, fun e => parse_unopened, hstaged.leaves, ?_, ?_⟩
  · intro t s' h
    rw [h] at hstaged
    cases hstaged with
    | parsed hstart hending htree =>
      exact ⟨_, _, _, hstart, rfl, hending, htree, Node.validate_of_ofJson htree⟩
  · intro a d found hopen hmissing hdelivers
    refine ⟨fun cause hfailure => ?_, fun jar s' => hmissing.provided hdelivers⟩
    obtain ⟨cause', s', hjar, hends⟩ := hmissing.unprovided hdelivers hfailure
    exact ⟨cause', s', parse_unprovided hopen hjar, hends⟩

def loneText : Node :=
  ⟨.text, some "a", 0, 1, []⟩

def printing : Surroundings where
  valueOf := fun _ => none
  workingDir := []
  accountHome := none
  program := fun _ _ => ⟨Utf8.encode loneText.toJson, [], .exited 0⟩
  serve := fun _ _ => none

def installed : FileSystem := ⟨[
  (["tmp"], .directory), (["d.adoc"], .file [97] false), (["java"], .file [0x23, 0x21] true)]⟩

def withCaptures : FileSystem :=
  (installed.put ["tmp", ".tmp"] (.file [] false)).put ["tmp", ".tmpxxxx"] (.file [] false)

def installedSettings : ParserSettings where
  java := some ⟨"/java"⟩
  jvmArgs := ["-Xmx1g"]
  jar := some ⟨"/p.jar"⟩

def unreachableSettings : ParserSettings where
  jarUrl := "http://127.0.0.1:9/p.jar"
  cacheDir := some ⟨"/cache"⟩

lemma captures_installed :
    Captures printing ⟨"/tmp"⟩ installed ["tmp", ".tmp"] ["tmp", ".tmpxxxx"] withCaptures := by
  have hfirst : installed.freshLocation [] ⟨"/tmp"⟩ [] = .ok ["tmp", ".tmp"] := by decide +kernel
  have hsecond : (installed.put ["tmp", ".tmp"] (.file [] false)).freshLocation [] ⟨"/tmp"⟩ [] =
      .ok ["tmp", ".tmpxxxx"] := by decide +kernel
  exact ⟨hfirst, hsecond, rfl⟩

lemma startable_installed :
    startable printing withCaptures ⟨"/java"⟩ ["-Xmx1g", "-jar", "/p.jar", "d.adoc"] = .ok ["java"] := by
  decide +kernel

/-- No server is asked, so that any may answer. -/
lemma parse_installed (serve : Url → Request → Option Reply) :
    installedSettings.parse { printing with serve := serve } ⟨"d.adoc"⟩ (.start installed) =
      .ok loneText (started (.start installed) ["java"] ["-Xmx1g", "-jar", "/p.jar", "d.adoc"]) := by
  have hopen : installed.lookup [] ⟨"d.adoc"⟩ = .ok (["d.adoc"], .file [97] false) := by decide +kernel
  have htree : Node.ofJson (Utf8.encode loneText.toJson) = .ok loneText :=
    Node.ofJson_valid (by decide) (by decide) (by decide)
  exact parse_parsed ⟨_, hopen⟩ rfl rfl captures_installed startable_installed rfl rfl htree

def downloadingSettings : ParserSettings where
  java := some ⟨"/java"⟩
  jarUrl := "http://h/p.jar"
  cacheDir := some ⟨"/c"⟩

def jarRequest : Request :=
  ⟨"GET", "/p.jar", "asciidoc-ast-rs/0.1.0", none, []⟩

def jarServer (reply : Reply) : Surroundings :=
  { printing with serve := fun _ request => if request = jarRequest then some reply else none }

lemma jar_parsed : ∃ s', downloadingSettings.parse (jarServer ⟨200, [106, 97, 114]⟩) ⟨"d.adoc"⟩ (.start installed) =
    .ok loneText s' :=
  run'_eq_some.mp (by decide +kernel)

lemma jar_missing (reply : Reply) : Missing downloadingSettings (jarServer reply) (.start installed)
    ⟨"http://h/p.jar", ⟨"/c/p.jar"⟩⟩ := by
  have hartifact : downloadingSettings.artifact printing = .ok ⟨"http://h/p.jar", ⟨"/c/p.jar"⟩⟩ := by decide +kernel
  have habsent : installed.isFile [] ⟨"/c/p.jar"⟩ = false := by decide +kernel
  exact ⟨rfl, hartifact, habsent⟩

lemma jar_prepares : Prepares ⟨"http://h/p.jar", ⟨"/c/p.jar"⟩⟩ printing installed := by
  have hmade : (installed.makeDirectories [] ⟨"/c"⟩).1 = .ok () := by decide +kernel
  have htmp : (installed.makeDirectories [] ⟨"/c"⟩).2.freshLocation [] ⟨"/c"⟩ ["p.jar"] =
      .ok ["c", ".tmpxxxxx"] := by
    decide +kernel
  exact ⟨_, _, Prod.ext hmade rfl, htmp⟩

theorem parse_stages_downloaded :
    unreachableSettings.parse printing ⟨"missing.adoc"⟩ (.start installed) =
      .error (.io .notFound none) (.start installed) ∧
    installedSettings.parse printing ⟨"d.adoc"⟩ (.start installed) =
      .ok loneText (started (.start installed) ["java"] ["-Xmx1g", "-jar", "/p.jar", "d.adoc"]) ∧
    loneText.validate = .ok () ∧
    (∃ s', downloadingSettings.parse (jarServer ⟨200, [106, 97, 114]⟩) ⟨"d.adoc"⟩ (.start installed) =
        .ok loneText s' ∧
      s'.files.read [] ⟨"/c/p.jar"⟩ = .ok [106, 97, 114] ∧ Event.requests s'.journal = [jarRequest]) ∧
    ∃ s', downloadingSettings.parse (jarServer ⟨404, [106, 97, 114]⟩) ⟨"d.adoc"⟩ (.start installed) =
        .error (.download "http://h/p.jar" ⟨"/c/p.jar"⟩ .other) s' ∧
      s'.journal = [.info "downloading http://h/p.jar to /c/p.jar", .sent jarRequest] := by
  have hmissing : installed.lookup [] ⟨"missing.adoc"⟩ = .error .notFound := by decide +kernel
  have hopen : installed.lookup [] ⟨"d.adoc"⟩ = .ok (["d.adoc"], .file [97] false) := by decide +kernel
  have hurl : Url.parse? "http://h/p.jar" = some ⟨false, "h", 80, "/p.jar"⟩ := by decide +kernel
  obtain ⟨-, hunopened, -⟩ := parse_stages unreachableSettings printing ⟨"missing.adoc"⟩ (.start installed)
  obtain ⟨-, -, -, hparsed, -⟩ := parse_stages installedSettings printing ⟨"d.adoc"⟩ (.start installed)
  obtain ⟨-, -, -, hparsed', hdownloaded⟩ := parse_stages downloadingSettings (jarServer ⟨200, [106, 97, 114]⟩)
    ⟨"d.adoc"⟩ (.start installed)
  obtain ⟨-, -, -, -, hrefused⟩ := parse_stages downloadingSettings (jarServer ⟨404, [106, 97, 114]⟩)
    ⟨"d.adoc"⟩ (.start installed)
  have hinstalled := parse_installed printing.serve
  obtain ⟨-, -, -, -, -, -, -, hvalid⟩ := hparsed _ _ hinstalled
  refine ⟨hunopened _ hmissing, hinstalled, hvalid, ?_, ?_⟩
  · obtain ⟨s', hparse⟩ := jar_parsed
    obtain ⟨l, arguments, before, hstarts, rfl, -⟩ := hparsed' _ _ hparse
    obtain ⟨jar, hprovides⟩ := hstarts.provided
    obtain ⟨-, hprovided⟩ := hdownloaded _ _ _ hopen (jar_missing _) (.body hurl rfl rfl (by decide))
    obtain ⟨rfl, -, hread, hjournal⟩ := hprovided _ _ hprovides
    refine ⟨_, hparse, hread, ?_⟩
    rw [ParserCommand.started, hjournal]
    rfl
  · have hstatus : ∀ reply, (Reply.mk 404 [106, 97, 114]).received = some reply →
        400 ≤ reply.status ∧ reply.status < 600 := by
      rintro _ ⟨⟩
      decide
    obtain ⟨hstopped, -⟩ := hrefused _ _ _ hopen (jar_missing _) (.refused hurl rfl hstatus)
    obtain ⟨_, s', hparse, -, hends⟩ := hstopped _ rfl
    obtain ⟨rfl, hjournal⟩ := hends jar_prepares
    exact ⟨s', hparse, hjournal⟩

end ParserSettings

end AdocProse
