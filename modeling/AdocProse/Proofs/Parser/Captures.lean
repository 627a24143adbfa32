import AdocProse.Proofs.Parser.Stages

/-! What the program writes is captured in two files. One of them decides how the run ends, and neither is left
behind, whatever fails and whatever the program does elsewhere. -/

namespace AdocProse

open FileSystem

def Outcome.deciding (o : Outcome) : List UInt8 :=
  if o.ending = .exited 0 then o.output else o.errors

namespace Action

variable {ε α β : Type} {a : Action ε α} {f : α → Action ε β} {s : Session}

/-- The session is the same afterwards, whether the action fails or not. -/
def Keeps (a : Action ε α) : Prop :=
  ∀ s, after (a s) = s

lemma Keeps.bind (ha : Keeps a) (hf : ∀ x, Keeps (f x)) : Keeps (a >>= f) := by
  intro s
  have hs := ha s
  simp only [Bind.bind, EStateM.bind]
  cases h : a s with
  | ok x s' =>
    rw [h] at hs
    exact (hf x s').trans hs
  | error e s' =>
    rw [h] at hs
    exact hs

lemma Keeps.after_bind (ha : Keeps a) (f : α → Action ε β) (s : Session) :
    after ((a >>= f) s) = s ∨ ∃ x, after ((a >>= f) s) = after (f x s) := by
  have hs := ha s
  simp only [Bind.bind, EStateM.bind]
  cases h : a s with
  | ok x s' =>
    rw [h] at hs
    obtain rfl : s' = s := hs
    exact .inr ⟨x, rfl⟩
  | error e s' =>
    rw [h] at hs
    exact .inl hs

lemma after_bind_keeps (a : Action ε α) (hf : ∀ x, Keeps (f x)) (s : Session) :
    after ((a >>= f) s) = after (a s) := by
  simp only [Bind.bind, EStateM.bind]
  cases a s with
  | ok x s' => exact hf x s'
  | error e s' => rfl

lemma keeps_pure (x : α) : Keeps (pure x : Action ε α) :=
  fun _ => rfl

lemma keeps_throw (e : ε) : Keeps (throw e : Action ε α) :=
  fun _ => rfl

lemma keeps_ofExcept (x : Except ε α) : Keeps (ofExcept x) := by
  cases x with
  | ok a => exact keeps_pure a
  | error e => exact keeps_throw e

end Action

namespace ParserCommand

def Launches (c : ParserCommand) (w : Surroundings) (input : Path) (s : Session) (l : Location) : Prop :=
  ∃ output errors fs, Captures w (c.captureDir w) s.files output errors fs ∧
    startable w fs c.program (c.arguments input) = .ok l

section

variable {c : ParserCommand} {w : Surroundings} {input : Path} {s : Session} {l : Location}

lemma firstExecutable_with (program : Location → List String → Outcome) (fs : FileSystem) (e : IoKind)
    (ps : List Path) : firstExecutable { w with program := program } fs e ps = firstExecutable w fs e ps := by
  induction ps generalizing e with
  | nil => rfl
  | cons p ps ih =>
    have hp : executable { w with program := program } fs p = executable w fs p := rfl
    simp only [firstExecutable, hp, ih]

lemma startable_with (program : Location → List String → Outcome) (fs : FileSystem) (p : Path)
    (arguments : List String) :
    startable { w with program := program } fs p arguments = startable w fs p arguments := by
  simp only [startable, locate, firstExecutable_with]
  rfl

lemma run_launched (h : Launches c w input s l) (program : Location → List String → Outcome) :
    c.run { w with program := program } input s =
      if (program l (c.arguments input)).ending = .exited 0
        then Action.ofExcept ((Node.ofJson (program l (c.arguments input)).output).mapError ParseError.tree)
          (started s l (c.arguments input))
        else .error (.parserFailed (program l (c.arguments input)).ending.code?
          (Utf8.decodeLossy (program l (c.arguments input)).errors)) (started s l (c.arguments input)) := by
  obtain ⟨output, errors, fs, hcaptures, hstart⟩ := h
  have hcaptures' : Captures { w with program := program } (c.captureDir w) s.files output errors fs := hcaptures
  rw [← startable_with program] at hstart
  exact run_started hcaptures' hstart rfl

end

/-- A program that ends with code 0 gives what its output is read as. Any other one is an error with its code, or
with none if it was killed, and with its errors, which are the message as they stand if they are a text. Two
programs that end alike and write the same in the stream that decides give the same run. -/
theorem one_stream_decides {c : ParserCommand} {w : Surroundings} {input : Path} {s : Session} {l : Location}
    (h : Launches c w input s l) :
    (∀ program : Location → List String → Outcome, (program l (c.arguments input)).ending = .exited 0 →
      c.run { w with program := program } input s =
        Action.ofExcept ((Node.ofJson (program l (c.arguments input)).output).mapError ParseError.tree)
          (started s l (c.arguments input))) ∧
    (∀ (program : Location → List String → Outcome) (code : Option Nat),
      Unsuccessful (program l (c.arguments input)).ending code →
      ∃ e, c.run { w with program := program } input s = .error e (started s l (c.arguments input)) ∧
        e = .parserFailed code (Utf8.decodeLossy (program l (c.arguments input)).errors) ∧
        ∀ text, (program l (c.arguments input)).errors = Utf8.encode text → e.text = text) ∧
    ∀ program program' : Location → List String → Outcome,
      (program l (c.arguments input)).ending = (program' l (c.arguments input)).ending →
      (program l (c.arguments input)).deciding = (program' l (c.arguments input)).deciding →
      c.run { w with program := program } input s = c.run { w with program := program' } input s := by
  refine ⟨fun program hending => ?_, fun program code hcode => ?_, fun program program' hending hdeciding => ?_⟩
  · rw [run_launched h, if_pos hending]
  · obtain ⟨hending, rfl⟩ := unsuccessful_iff.mp hcode
    rw [run_launched h, if_neg hending]
    refine ⟨_, rfl, rfl, fun text htext => ?_⟩
    rw [htext]
    exact Utf8.decodeLossy_encode text
  · rw [run_launched h, run_launched h, ← hending]
    rw [Outcome.deciding, Outcome.deciding, ← hending] at hdeciding
    split_ifs at hdeciding ⊢
    · rw [hdeciding]
    · rw [hdeciding]

open ParserSettings (printing installed loneText)

def installedCommand : ParserCommand :=
  ParserSettings.installedSettings.command ⟨"/java"⟩ ⟨"/p.jar"⟩

lemma launches_installed : Launches installedCommand printing ⟨"d.adoc"⟩ (.start installed) ["java"] :=
  ⟨_, _, _, ParserSettings.captures_installed, ParserSettings.startable_installed⟩

def exiting (code : Nat) (output errors : List UInt8) : Location → List String → Outcome :=
  fun _ _ => ⟨output, errors, .exited code⟩

def killedBy (signal : Nat) (output errors : List UInt8) : Location → List String → Outcome :=
  fun _ _ => ⟨output, errors, .killed signal⟩

theorem one_stream_decides_installed :
    Launches installedCommand printing ⟨"d.adoc"⟩ (.start installed) ["java"] ∧
    (∃ e s', installedCommand.run { printing with program := exiting 3 [0xFF] (Utf8.encode "at é\n") }
      ⟨"d.adoc"⟩ (.start installed) = .error e s' ∧ e = .parserFailed (some 3) "at é\n" ∧ e.text = "at é\n") ∧
    (∃ s', installedCommand.run { printing with program := killedBy 9 (Utf8.encode loneText.toJson) [] }
      ⟨"d.adoc"⟩ (.start installed) = .error (.parserFailed none "") s') ∧
    (∃ s', installedCommand.run { printing with program := exiting 0 (Utf8.encode loneText.toJson) [0xFF] }
      ⟨"d.adoc"⟩ (.start installed) = .ok loneText s') ∧
    installedCommand.run { printing with program := exiting 0 (Utf8.encode loneText.toJson) [0xFF] }
        ⟨"d.adoc"⟩ (.start installed) =
      installedCommand.run { printing with program := exiting 0 (Utf8.encode loneText.toJson) [] }
        ⟨"d.adoc"⟩ (.start installed) := by
  obtain ⟨hread, hfailed, hsame⟩ := one_stream_decides launches_installed
  obtain ⟨e, hrun, he, htext⟩ := hfailed (exiting 3 [0xFF] (Utf8.encode "at é\n")) _ (.exited (by decide))
  obtain ⟨e', hkilled, he', -⟩ := hfailed (killedBy 9 (Utf8.encode loneText.toJson) []) _ .killed
  have htree : Node.ofJson (Utf8.encode loneText.toJson) = .ok loneText :=
    Node.ofJson_valid (by decide) (by decide) (by decide)
  have hparsed := hread (exiting 0 (Utf8.encode loneText.toJson) [0xFF]) rfl
  rw [exiting, htree] at hparsed
  refine ⟨launches_installed, ⟨e, _, hrun, ?_, htext _ rfl⟩, ⟨_, he' ▸ hkilled⟩, ⟨_, hparsed⟩, hsame _ _ rfl rfl⟩
  rw [he, exiting, Utf8.decodeLossy_encode]

/-- A step of a run that the system can refuse. -/
inductive Call
  | createOutput
  | createErrors
  | openOutput
  | openErrors
  | start
  | wait
  | readErrors
  | reopenOutput
  | measureOutput
  deriving DecidableEq

/-- What the system refuses during a run, and what the program does to the files besides what it writes to its
streams. An output that cannot be read to its end is malformed. -/
structure Conditions where
  refusal : Call → Option IoKind
  unreadable : Option Json.Fault
  effect : FileSystem → FileSystem

namespace Conditions

def calm : Conditions where
  refusal := fun _ => none
  unreadable := none
  effect := id

/-- The program leaves what is in the directory as it is, and the directory itself. -/
def Spares (k : Conditions) (dir : Location) : Prop :=
  ∀ fs l, dir <+: l → (k.effect fs).get? l = fs.get? l

def pass (k : Conditions) (call : Call) (error : IoKind → ParseError) : Action ParseError Unit :=
  match k.refusal call with
  | some e => throw (error e)
  | none => pure ()

def readable (k : Conditions) : Action ParseError Unit :=
  match k.unreadable with
  | some f => throw (.tree (.malformed f))
  | none => pure ()

lemma pass_calm (call : Call) (error : IoKind → ParseError) : calm.pass call error = pure () := rfl

lemma readable_calm : calm.readable = pure () := rfl

end Conditions

def captureLocation (c : ParserCommand) (w : Surroundings) : Location :=
  spelled w.workingDir (c.captureDir w)

def capturePath (c : ParserCommand) (w : Surroundings) (l : Location) : Path :=
  (c.captureDir w).join (l.getLast?.getD "")

def captureUnder (c : ParserCommand) (w : Surroundings) (k : Conditions) (call : Call) :
    Action ParseError Location := do
  k.pass call fun e => .io e (some ((c.captureDir w).join (freshName [])))
  c.captureFile w

def launchUnder (c : ParserCommand) (w : Surroundings) (k : Conditions) (input : Path) (output errors : Location) :
    Action ParseError Ending := do
  k.pass .openOutput fun e => .io e (some (c.capturePath w output))
  k.pass .openErrors fun e => .io e (some (c.capturePath w errors))
  k.pass .start (.spawnFailed c.program)
  let ending ← c.launch w input output errors
  -- Only a program that was started has an effect.
  Action.setFiles (k.effect (← Action.files))
  k.pass .wait (.spawnFailed c.program)
  pure ending

def resultUnder (c : ParserCommand) (w : Surroundings) (k : Conditions) (ending : Ending)
    (output errors : Location) : Action ParseError Node := do
  if ending = .exited 0 then
    k.pass .reopenOutput fun e => .io e (some (c.capturePath w output))
    k.pass .measureOutput fun e => .io e none
    k.readable
  else k.pass .readErrors fun e => .io e none
  result ending output errors

def runUnder (c : ParserCommand) (w : Surroundings) (k : Conditions) (input : Path) : Action ParseError Node := do
  let output ← c.captureUnder w k .createOutput
  releasing output do
    let errors ← c.captureUnder w k .createErrors
    releasing errors do
      let ending ← c.launchUnder w k input output errors
      c.resultUnder w k ending output errors

section

variable {c : ParserCommand} {w : Surroundings} {k : Conditions} {input : Path} {s : Session}
  {output errors l : Location} {fs fs' : FileSystem} {α : Type}

lemma keeps_pass (k : Conditions) (call : Call) (error : IoKind → ParseError) :
    Action.Keeps (k.pass call error) := by
  rw [Conditions.pass]
  cases k.refusal call with
  | none => exact Action.keeps_pure ()
  | some e => exact Action.keeps_throw _

lemma keeps_readable (k : Conditions) : Action.Keeps k.readable := by
  rw [Conditions.readable]
  cases k.unreadable with
  | none => exact Action.keeps_pure ()
  | some f => exact Action.keeps_throw _

lemma keeps_content (l : Location) : Action.Keeps (content l) := by
  intro s
  simp only [content, bind, EStateM.bind, Action.files]
  rcases s.files.get? l with _ | ⟨bytes, executable⟩ | _ <;> rfl

lemma keeps_result (ending : Ending) (output errors : Location) : Action.Keeps (result ending output errors) := by
  rw [result]
  split_ifs
  · exact (keeps_content output).bind fun bytes => Action.keeps_ofExcept _
  · exact (keeps_content errors).bind fun bytes => Action.keeps_throw _

lemma keeps_resultUnder (ending : Ending) (output errors : Location) :
    Action.Keeps (c.resultUnder w k ending output errors) := by
  rw [resultUnder]
  split_ifs
  · apply (keeps_pass k .reopenOutput _).bind
    intro _
    apply (keeps_pass k .measureOutput _).bind
    intro _
    apply (keeps_readable k).bind
    exact fun _ => keeps_result ending output errors
  · apply (keeps_pass k .readErrors _).bind
    exact fun _ => keeps_result ending output errors

lemma launchUnder_after : Action.after (c.launchUnder w k input output errors s) = s ∨
    ∃ l outcome, startable w s.files c.program (c.arguments input) = .ok l ∧
      w.program l (c.arguments input) = outcome ∧
      Action.after (c.launchUnder w k input output errors s) =
        ⟨k.effect ((s.files.put output (.file outcome.output false)).put errors (.file outcome.errors false)),
          s.journal ++ [.started l (c.arguments input)]⟩ := by
  rw [launchUnder]
  rcases (keeps_pass k .openOutput _).after_bind _ s with h | ⟨_, h⟩
  · exact .inl h
  rw [h]
  rcases (keeps_pass k .openErrors _).after_bind _ s with h | ⟨_, h⟩
  · exact .inl h
  rw [h]
  rcases (keeps_pass k .start _).after_bind _ s with h | ⟨_, h⟩
  · exact .inl h
  rw [h]
  cases hstart : startable w s.files c.program (c.arguments input) with
  | error e =>
    left
    simp only [bind, EStateM.bind, launch_unstarted hstart]
    rfl
  | ok l =>
    right
    refine ⟨l, _, rfl, rfl, ?_⟩
    simp only [bind, EStateM.bind, launch_started hstart, Action.files, Action.setFiles]
    exact ((keeps_pass k .wait _).bind fun _ => Action.keeps_pure _) _

lemma captureUnder_cases (c : ParserCommand) (w : Surroundings) (k : Conditions) (call : Call) (s : Session) :
    (∃ e, c.captureUnder w k call s = .error e s) ∨
      ∃ l, s.files.freshLocation w.workingDir (c.captureDir w) [] = .ok l ∧
        c.captureUnder w k call s = .ok l ⟨s.files.put l (.file [] false), s.journal⟩ := by
  simp only [captureUnder, Conditions.pass]
  cases k.refusal call with
  | some e => exact .inl ⟨_, rfl⟩
  | none =>
    cases hfresh : s.files.freshLocation w.workingDir (c.captureDir w) [] with
    | error e =>
      left
      simp only [captureFile, bind, EStateM.bind, pure, EStateM.pure, Action.files, hfresh]
      exact ⟨_, rfl⟩
    | ok l =>
      right
      simp only [captureFile, bind, EStateM.bind, pure, EStateM.pure, Action.files, hfresh, Action.setFiles]
      exact ⟨l, rfl, rfl⟩

lemma released_after (call : Call) (body : Location → Action ParseError α) (s : Session) :
    Action.after ((do
      let l ← c.captureUnder w k call
      releasing l (body l) : Action ParseError α) s) = s ∨
    ∃ l s', s.files.freshLocation w.workingDir (c.captureDir w) [] = .ok l ∧
      Action.after (body l ⟨s.files.put l (.file [] false), s.journal⟩) = s' ∧
      Action.after ((do
        let l ← c.captureUnder w k call
        releasing l (body l) : Action ParseError α) s) = ⟨s'.files.erase l, s'.journal⟩ := by
  simp only [bind, EStateM.bind]
  rcases c.captureUnder_cases w k call s with ⟨e, h⟩ | ⟨l, hfresh, h⟩
  · rw [h]
    exact .inl rfl
  · rw [h]
    refine .inr ⟨l, _, hfresh, rfl, ?_⟩
    simp only [releasing]
    cases body l ⟨s.files.put l (.file [] false), s.journal⟩ <;> rfl

lemma runUnder_after (c : ParserCommand) (w : Surroundings) (k : Conditions) (input : Path) (s : Session) :
    Action.after (c.runUnder w k input s) = s ∨ ∃ output errors fs l outcome,
      Captures w (c.captureDir w) s.files output errors fs ∧
      startable w fs c.program (c.arguments input) = .ok l ∧ w.program l (c.arguments input) = outcome ∧
      Action.after (c.runUnder w k input s) =
        ⟨((k.effect ((fs.put output (.file outcome.output false)).put errors
          (.file outcome.errors false))).erase errors).erase output,
          s.journal ++ [.started l (c.arguments input)]⟩ := by
  rw [runUnder]
  rcases released_after .createOutput _ s with h | ⟨output, s', houtput, hinner, h⟩
  · exact .inl h
  rw [h]
  rcases released_after .createErrors _ _ with hinner' | ⟨errors, s'', herrors, hbody, hinner'⟩
  -- There is no second file, and the first one is taken away again.
  · obtain ⟨-, name, hname, -⟩ := freshLocation_ok houtput
    rw [← hinner, hinner', erase_put, erase_new (by simp [hname]) (freshLocation_ok houtput).1]
    exact .inl rfl
  -- However the result is read, and whether it is, the session is the one after the launch.
  rw [← hinner, hinner', ← hbody, Action.after_bind_keeps _ fun ending => keeps_resultUnder ending output errors]
  have hcaptures : Captures w (c.captureDir w) s.files output errors _ := ⟨houtput, herrors, rfl⟩
  rcases launchUnder_after with h | ⟨l, outcome, hstart, houtcome, h⟩
  · rw [h]
    exact .inl (congrArg (Session.mk · s.journal) hcaptures.removed)
  · rw [h]
    exact .inr ⟨output, errors, _, l, outcome, hcaptures, hstart, houtcome, rfl⟩

lemma captureUnder_calm (c : ParserCommand) (w : Surroundings) (call : Call) :
    c.captureUnder w .calm call = c.captureFile w := by
  simp only [captureUnder, Conditions.pass_calm, pure_bind]

lemma launchUnder_calm (c : ParserCommand) (w : Surroundings) (input : Path) (output errors : Location) :
    c.launchUnder w .calm input output errors = c.launch w input output errors := by
  simp only [launchUnder, Conditions.pass_calm, pure_bind]
  funext s
  simp only [bind, EStateM.bind]
  cases c.launch w input output errors s <;> rfl

lemma resultUnder_calm (c : ParserCommand) (w : Surroundings) (ending : Ending) (output errors : Location) :
    c.resultUnder w .calm ending output errors = result ending output errors := by
  simp only [resultUnder, Conditions.pass_calm, Conditions.readable_calm, pure_bind, ite_self]

lemma runUnder_calm (c : ParserCommand) (w : Surroundings) (input : Path) :
    c.runUnder w .calm input = c.run w input := by
  simp only [runUnder, captureUnder_calm, launchUnder_calm, resultUnder_calm, run]

lemma Captures.in_directory (h : Captures w (c.captureDir w) s.files output errors fs) :
    c.captureLocation w <+: output ∧ c.captureLocation w <+: errors := by
  obtain ⟨houtput, herrors, -⟩ := h
  obtain ⟨-, name, rfl, -⟩ := freshLocation_ok houtput
  obtain ⟨-, name', rfl, -⟩ := freshLocation_ok herrors
  exact ⟨List.prefix_append _ _, List.prefix_append _ _⟩

lemma Captures.new (h : Captures w (c.captureDir w) s.files output errors fs) :
    s.files.get? output = none ∧ s.files.get? errors = none := by
  have hapart := h.apart
  obtain ⟨houtput, herrors, -⟩ := h
  have hnew := (freshLocation_ok herrors).1
  rw [get?_put_ne hapart.2.2] at hnew
  exact ⟨(freshLocation_ok houtput).1, hnew⟩

lemma Captures.get?_written (h : Captures w (c.captureDir w) s.files output errors fs) {l : Location}
    (houtput : l ≠ output) (herrors : l ≠ errors) (out err : Entry) :
    ((fs.put output out).put errors err).get? l = s.files.get? l := by
  obtain ⟨-, -, rfl⟩ := h
  rw [get?_put_ne herrors, get?_put_ne houtput, get?_put_ne herrors, get?_put_ne houtput]

lemma get?_erase_both (houtput : l ≠ output) (herrors : l ≠ errors) :
    ((fs.erase errors).erase output).get? l = fs.get? l := by
  rw [get?_erase_ne houtput, get?_erase_ne herrors]

end

/-- Wherever a run fails, the directory of the capture files is afterwards as it was before, if the program leaves
it alone. Everything else is as it was, or as the program left it. -/
theorem captures_removed (c : ParserCommand) (w : Surroundings) (input : Path) (s : Session) :
    (Action.after (c.run w input s)).files = s.files ∧ c.runUnder w .calm input = c.run w input ∧
    ∀ k : Conditions, k.Spares (c.captureLocation w) →
      (∀ l, c.captureLocation w <+: l →
        (Action.after (c.runUnder w k input s)).files.get? l = s.files.get? l) ∧
      (Action.after (c.runUnder w k input s) = s ∨ ∃ program fs,
        (Action.after (c.runUnder w k input s)).journal = s.journal ++ [.started program (c.arguments input)] ∧
        ∀ l, ¬c.captureLocation w <+: l → fs.get? l = s.files.get? l ∧
          (Action.after (c.runUnder w k input s)).files.get? l = (k.effect fs).get? l) := by
  refine ⟨?_, runUnder_calm c w input, fun k hspares => ?_⟩
  · rw [← runUnder_calm]
    rcases runUnder_after c w .calm input s with h | ⟨output, errors, fs, l, outcome, hcaptures, -, -, h⟩
    · rw [h]
    · rw [h]
      exact hcaptures.written_removed _ _
  rcases runUnder_after c w k input s with h | ⟨output, errors, fs, program, outcome, hcaptures, -, -, h⟩
  · rw [h]
    exact ⟨fun l _ => rfl, .inl rfl⟩
  obtain ⟨hnew, hnew'⟩ := hcaptures.new
  obtain ⟨hin, hin'⟩ := hcaptures.in_directory
  obtain ⟨hne, hne', hapart⟩ := hcaptures.apart
  rw [h]
  refine ⟨fun l hl => ?_, .inr ⟨program, (fs.put output (.file outcome.output false)).put errors
    (.file outcome.errors false), rfl, fun l hl => ?_⟩⟩
  · by_cases houtput : l = output
    · rw [houtput, get?_erase_self hne, hnew]
    by_cases herrors : l = errors
    · rw [herrors, get?_erase_ne hapart, get?_erase_self hne', hnew']
    rw [get?_erase_both houtput herrors, hspares _ l hl, hcaptures.get?_written houtput herrors]
  · have houtput : l ≠ output := fun h => hl (h ▸ hin)
    have herrors : l ≠ errors := fun h => hl (h ▸ hin')
    exact ⟨hcaptures.get?_written houtput herrors _ _, get?_erase_both houtput herrors⟩

def unreadErrors : Conditions where
  refusal := fun call => if call = .readErrors then some .permissionDenied else none
  unreadable := none
  effect := fun fs => fs.put ["out.log"] (.file [] false)

theorem captures_removed_unread :
    (∃ s', installedCommand.runUnder { printing with program := exiting 1 [] [97] } unreadErrors ⟨"d.adoc"⟩
      (.start installed) = .error (.io .permissionDenied none) s' ∧
        s'.files.get? ["out.log"] = some (.file [] false)) ∧
    unreadErrors.Spares ["tmp"] ∧
    ∀ l, ["tmp"] <+: l → (Action.after (installedCommand.runUnder { printing with program := exiting 1 [] [97] }
      unreadErrors ⟨"d.adoc"⟩ (.start installed))).files.get? l = installed.get? l := by
  have hspares : unreadErrors.Spares ["tmp"] := by
    rintro fs l ⟨rest, rfl⟩
    exact get?_put_ne (by simp)
  obtain ⟨-, -, hremoved⟩ := captures_removed installedCommand { printing with program := exiting 1 [] [97] }
    ⟨"d.adoc"⟩ (.start installed)
  refine ⟨⟨_, rfl, ?_⟩, hspares, (hremoved unreadErrors hspares).1⟩
  decide +kernel

end ParserCommand

end AdocProse
