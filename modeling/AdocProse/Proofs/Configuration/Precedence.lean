import AdocProse.Configuration.Lookup
import AdocProse.Proofs.System.Ancestors
import AdocProse.Proofs.Text.Utf8

/-! Which file the configuration is taken from. A file that is asked for is used or the lookup fails; else
the nearest project file is used, or the user's file, or the defaults. -/

namespace AdocProse.Configuration

/-- The path leads to a file with these settings. -/
def Holds (w : Surroundings) (fs : FileSystem) (p : Path) (c : Settings) : Prop :=
  ∃ bytes text, fs.read w.workingDir p = .ok bytes ∧ Utf8.decode? bytes = some text ∧
    Settings.ofText? text = some c

/-- Why no settings are taken from a path. -/
inductive Unusable (w : Surroundings) (fs : FileSystem) (p : Path) : ConfigurationError → Prop where
  | missing {kind} (h : fs.lookup w.workingDir p = .error kind) : Unusable w fs p (.io kind)
  | directory {l} (h : fs.lookup w.workingDir p = .ok (l, .directory)) :
    Unusable w fs p (.io .isADirectory)
  | undecodable {bytes} (h : fs.read w.workingDir p = .ok bytes) (htext : Utf8.decode? bytes = none) :
    Unusable w fs p (.io .invalidData)
  | invalid {bytes text} (h : fs.read w.workingDir p = .ok bytes) (htext : Utf8.decode? bytes = some text)
    (hsettings : Settings.ofText? text = none) : Unusable w fs p (.invalid p)

/-- The first project file in a directory or in those above it, a hidden file before another one in the
same directory. -/
inductive Nearest (w : Surroundings) (fs : FileSystem) : Path → Path → Prop where
  | hidden {d} (h : fs.isFile w.workingDir (d.join ".languagetool-asciidoc.toml") = true) :
    Nearest w fs d (d.join ".languagetool-asciidoc.toml")
  | plain {d} (hhidden : fs.isFile w.workingDir (d.join ".languagetool-asciidoc.toml") = false)
    (h : fs.isFile w.workingDir (d.join "languagetool-asciidoc.toml") = true) :
    Nearest w fs d (d.join "languagetool-asciidoc.toml")
  | above {d q p} (hhidden : fs.isFile w.workingDir (d.join ".languagetool-asciidoc.toml") = false)
    (hplain : fs.isFile w.workingDir (d.join "languagetool-asciidoc.toml") = false)
    (hparent : d.parent? = some q) (h : Nearest w fs q p) : Nearest w fs d p

/-- The path of the user's own file, below the directory for configurations. -/
def UserPlace (w : Surroundings) (p : Path) : Prop :=
  ∃ dir, w.configDir? = some dir ∧ p = (dir.join "languagetool-asciidoc").join "config.toml"

/-- The settings that are used if no file is asked for, and the file that they are taken from. -/
inductive Chosen (w : Surroundings) (fs : FileSystem) (d : Path) : Settings → Option Path → Prop where
  | project {p c} (hnearest : Nearest w fs d p) (h : Holds w fs p c) : Chosen w fs d c (some p)
  | user {p c} (hproject : ∀ p, Nearest w fs d p → ∀ c, ¬ Holds w fs p c) (hplace : UserPlace w p)
    (h : Holds w fs p c) : Chosen w fs d c (some p)
  | default (hproject : ∀ p, Nearest w fs d p → ∀ c, ¬ Holds w fs p c)
    (huser : ∀ p, UserPlace w p → ∀ c, ¬ Holds w fs p c) : Chosen w fs d {} none

/-- What is used if no project file can be. -/
inductive Fallback (w : Surroundings) (fs : FileSystem) : Settings → Option Path → Prop where
  | user {p c} (hplace : UserPlace w p) (h : Holds w fs p c) : Fallback w fs c (some p)
  | default (huser : ∀ p, UserPlace w p → ∀ c, ¬ Holds w fs p c) : Fallback w fs {} none

section

variable {w : Surroundings} {fs : FileSystem} {d p q : Path} {c c' : Settings} {found found' : Option Path}

lemma settings_unique {bytes : List UInt8} {text text' : String} (htext : Utf8.decode? bytes = some text)
    (hc : Settings.ofText? text = some c) (htext' : Utf8.decode? bytes = some text')
    (hc' : Settings.ofText? text' = some c') : c = c' := by
  rw [htext, Option.some.injEq] at htext'
  subst htext'
  exact Option.some.inj (hc.symm.trans hc')

lemma Holds.unique (h : Holds w fs p c) (h' : Holds w fs p c') : c = c' := by
  obtain ⟨bytes, text, hread, htext, hc⟩ := h
  obtain ⟨bytes', text', hread', htext', hc'⟩ := h'
  rw [hread, Except.ok.injEq] at hread'
  subst hread'
  exact settings_unique htext hc htext' hc'

lemma Holds.isFile (h : Holds w fs p c) : fs.isFile w.workingDir p = true := by
  obtain ⟨bytes, -, hread, -⟩ := h
  exact FileSystem.isFile_iff_read.mpr ⟨bytes, hread⟩

lemma readFile_unreadable {kind : IoKind} (h : fs.read w.workingDir p = .error kind) :
    readFile fs w.workingDir p = .error (.io kind) := by
  rw [readFile, h]
  rfl

lemma readFile_undecodable {bytes : List UInt8} (h : fs.read w.workingDir p = .ok bytes)
    (htext : Utf8.decode? bytes = none) : readFile fs w.workingDir p = .error (.io .invalidData) := by
  simp only [readFile, h, Except.mapError, bind, Except.bind, htext]

lemma readFile_invalid {bytes : List UInt8} {text : String} (h : fs.read w.workingDir p = .ok bytes)
    (htext : Utf8.decode? bytes = some text) (hsettings : Settings.ofText? text = none) :
    readFile fs w.workingDir p = .error (.invalid p) := by
  simp only [readFile, h, Except.mapError, bind, Except.bind, htext, hsettings]

lemma readFile_holds (h : Holds w fs p c) : readFile fs w.workingDir p = .ok c := by
  obtain ⟨bytes, text, hread, htext, hsettings⟩ := h
  simp only [readFile, hread, Except.mapError, bind, Except.bind, htext, hsettings]

lemma readFile_unusable {e : ConfigurationError} (h : Unusable w fs p e) :
    readFile fs w.workingDir p = .error e := by
  cases h with
  | missing h => exact readFile_unreadable (FileSystem.read_error.mpr (.inl h))
  | directory h => exact readFile_unreadable (FileSystem.read_error.mpr (.inr ⟨rfl, _, h⟩))
  | undecodable h htext => exact readFile_undecodable h htext
  | invalid h htext hsettings => exact readFile_invalid h htext hsettings

lemma holds_or_unusable (w : Surroundings) (fs : FileSystem) (p : Path) :
    (∃ c, Holds w fs p c) ∨ ∃ e, Unusable w fs p e := by
  cases hread : fs.read w.workingDir p with
  | error kind =>
    rcases FileSystem.read_error.mp hread with h | ⟨rfl, l, h⟩
    · exact .inr ⟨_, .missing h⟩
    · exact .inr ⟨_, .directory h⟩
  | ok bytes =>
    cases htext : Utf8.decode? bytes with
    | none => exact .inr ⟨_, .undecodable hread htext⟩
    | some text =>
      cases hsettings : Settings.ofText? text with
      | none => exact .inr ⟨_, .invalid hread htext hsettings⟩
      | some c => exact .inl ⟨c, bytes, text, hread, htext, hsettings⟩

lemma readFile_error {e : ConfigurationError} :
    readFile fs w.workingDir p = .error e ↔ Unusable w fs p e := by
  refine ⟨fun h => ?_, readFile_unusable⟩
  rcases holds_or_unusable w fs p with ⟨c, hc⟩ | ⟨e', he'⟩
  · cases h.symm.trans (readFile_holds hc)
  · cases h.symm.trans (readFile_unusable he')
    exact he'

lemma Unusable.not_holds {e : ConfigurationError} (h : Unusable w fs p e) (c : Settings) : ¬ Holds w fs p c := by
  intro hc
  cases (readFile_unusable h).symm.trans (readFile_holds hc)

lemma find?_names {α : Type} (test : α → Bool) (place : String → α) (rest : List α) :
    (names.map place ++ rest).find? test =
    if test (place ".languagetool-asciidoc.toml") then some (place ".languagetool-asciidoc.toml")
    else if test (place "languagetool-asciidoc.toml") then some (place "languagetool-asciidoc.toml")
    else rest.find? test := by
  simp only [names, List.map_cons, List.map_nil, List.cons_append, List.nil_append, List.find?_cons]
  cases test (place ".languagetool-asciidoc.toml") <;>
    cases test (place "languagetool-asciidoc.toml") <;> rfl

lemma projectFile?_eq (w : Surroundings) (fs : FileSystem) (d : Path) : projectFile? w fs d =
    if fs.isFile w.workingDir (d.join ".languagetool-asciidoc.toml") then
      some (d.join ".languagetool-asciidoc.toml")
    else if fs.isFile w.workingDir (d.join "languagetool-asciidoc.toml") then
      some (d.join "languagetool-asciidoc.toml")
    else d.parent?.bind (projectFile? w fs) := by
  cases hparent : d.parent? with
  | none => rw [projectFile?, candidates, Path.ancestors_top hparent, List.flatMap_cons, find?_names]; rfl
  | some q => rw [projectFile?, candidates, Path.ancestors_parent hparent, List.flatMap_cons, find?_names]; rfl

lemma projectFile?_eq_some : projectFile? w fs d = some p ↔ Nearest w fs d p := by
  constructor
  · intro h
    induction d using Path.parentInduct with
    | step d ih =>
      rw [projectFile?_eq] at h
      split at h
      · next hhidden =>
        cases h
        exact .hidden hhidden
      · next hhidden =>
        split at h
        · next hplain =>
          cases h
          exact .plain (by simpa using hhidden) hplain
        · next hplain =>
          obtain ⟨q, hparent, hq⟩ := Option.bind_eq_some_iff.mp h
          exact .above (by simpa using hhidden) (by simpa using hplain) hparent (ih q hparent hq)
  · intro h
    induction h with
    | hidden h => rw [projectFile?_eq, if_pos h]
    | plain hhidden h => rw [projectFile?_eq, hhidden, if_neg (by simp), if_pos h]
    | above hhidden hplain hparent _ ih =>
      rw [projectFile?_eq, hhidden, hplain, if_neg (by simp), if_neg (by simp), hparent, Option.bind_some, ih]

lemma projectFile?_eq_none : projectFile? w fs d = none ↔ ∀ p, ¬ Nearest w fs d p := by
  simp only [← projectFile?_eq_some, Option.eq_none_iff_forall_ne_some]

lemma Nearest.isFile (h : Nearest w fs d p) : fs.isFile w.workingDir p = true := by
  induction h with
  | hidden h | plain _ h => exact h
  | above _ _ _ _ ih => exact ih

lemma Nearest.unique (h : Nearest w fs d p) (h' : Nearest w fs d q) : p = q :=
  Option.some.inj ((projectFile?_eq_some.mpr h).symm.trans (projectFile?_eq_some.mpr h'))

lemma userPlace?_eq_some : userPlace? w = some p ↔ UserPlace w p :=
  Option.map_eq_some_iff.trans (exists_congr fun _ => and_congr_right fun _ => eq_comm)

lemma UserPlace.unique (h : UserPlace w p) (h' : UserPlace w q) : p = q :=
  Option.some.inj ((userPlace?_eq_some.mpr h).symm.trans (userPlace?_eq_some.mpr h'))

lemma userFile?_holds (hplace : UserPlace w p) (h : Holds w fs p c) : userFile? w fs = some p := by
  rw [userFile?, userPlace?_eq_some.mpr hplace, Option.filter_some, if_pos h.isFile]

lemma UserPlace.of_userFile? (h : userFile? w fs = some p) : UserPlace w p :=
  userPlace?_eq_some.mp (Option.filter_eq_some_iff.mp h).1

lemma loadFile_ok {s : Session} (h : readFile s.files w.workingDir p = .ok c) : loadFile w p s =
    .ok c ⟨s.files, s.journal ++ [.info ("Loaded config from: " ++ p.text)]⟩ := by
  simp only [loadFile, bind, EStateM.bind, Action.files, h, Action.ofExcept, Action.inform, Action.record,
    pure, EStateM.pure]

lemma loadFile_error {s : Session} {e : ConfigurationError} (h : readFile s.files w.workingDir p = .error e) :
    loadFile w p s = .error e s := by
  simp only [loadFile, bind, EStateM.bind, Action.files, h, Action.ofExcept]

lemma loadFile_holds {s : Session} (h : Holds w s.files p c) :
    ∃ s', loadFile w p s = .ok c s' ∧ s'.files = s.files :=
  ⟨_, loadFile_ok (readFile_holds h), rfl⟩

lemma loadFile_unusable {s : Session} {e : ConfigurationError} (h : Unusable w s.files p e) :
    loadFile w p s = .error e s :=
  loadFile_error (readFile_unusable h)

/-- The settings of the first file that can be used. -/
inductive FirstUsable (w : Surroundings) (fs : FileSystem) : List Path → Settings → Option Path → Prop where
  | none : FirstUsable w fs [] {} none
  | usable {p ps c} (h : Holds w fs p c) : FirstUsable w fs (p :: ps) c (some p)
  | ignored {p ps c found} (h : ∀ c, ¬ Holds w fs p c) (hrest : FirstUsable w fs ps c found) :
    FirstUsable w fs (p :: ps) c found

lemma firstUsable_ok (w : Surroundings) (ps : List Path) (s : Session) :
    ∃ c found s', firstUsable w ps s = .ok (c, found) s' ∧ s'.files = s.files ∧
      FirstUsable w s.files ps c found := by
  induction ps generalizing s with
  | nil => exact ⟨_, _, s, rfl, rfl, .none⟩
  | cons p ps ih =>
    rcases holds_or_unusable w s.files p with ⟨c, h⟩ | ⟨e, h⟩
    · obtain ⟨s', hload, hfiles⟩ := loadFile_holds h
      refine ⟨c, some p, s', ?_, hfiles, .usable h⟩
      simp only [firstUsable, bind, EStateM.bind, Action.attempt, hload, pure, EStateM.pure]
    · obtain ⟨c, found, s', hrest, hfiles, hfirst⟩ :=
        ih ⟨s.files, s.journal ++ [.warning ("Ignoring config " ++ p.text ++ ": " ++ e.text)]⟩
      refine ⟨c, found, s', ?_, hfiles, .ignored h.not_holds hfirst⟩
      simp only [firstUsable, bind, EStateM.bind, Action.attempt, loadFile_unusable h, Action.warn,
        Action.record, hrest]

lemma chosen_of_user (hproject : ∀ p, Nearest w fs d p → ∀ c, ¬ Holds w fs p c)
    (h : FirstUsable w fs (userFile? w fs).toList c found) : Chosen w fs d c found := by
  cases huser : userFile? w fs with
  | none =>
    rw [huser] at h
    cases h
    refine .default hproject fun p hplace c hc => ?_
    cases huser.symm.trans (userFile?_holds hplace hc)
  | some p =>
    have hplace := UserPlace.of_userFile? huser
    rw [huser] at h
    cases h with
    | usable h => exact .user hproject hplace h
    | ignored h hrest =>
      cases hrest
      exact .default hproject fun q hq => hplace.unique hq ▸ h

lemma chosen_of_firstUsable
    (h : FirstUsable w fs ((projectFile? w fs d).toList ++ (userFile? w fs).toList) c found) :
    Chosen w fs d c found := by
  cases hproject : projectFile? w fs d with
  | none =>
    rw [hproject] at h
    exact chosen_of_user (fun p hp => absurd hp (projectFile?_eq_none.mp hproject p)) h
  | some p =>
    have hnearest := projectFile?_eq_some.mp hproject
    rw [hproject] at h
    cases h with
    | usable h => exact .project hnearest h
    | ignored h hrest => exact chosen_of_user (fun q hq => hnearest.unique hq ▸ h) hrest

lemma Chosen.unique (h : Chosen w fs d c found) (h' : Chosen w fs d c' found') :
    c = c' ∧ found = found' := by
  cases h with
  | project hnearest h =>
    cases h' with
    | project hnearest' h' =>
      obtain rfl := hnearest.unique hnearest'
      exact ⟨h.unique h', rfl⟩
    | user hproject | default hproject => exact absurd h (hproject _ hnearest _)
  | user hproject hplace h =>
    cases h' with
    | project hnearest h' => exact absurd h' (hproject _ hnearest _)
    | user hproject' hplace' h' =>
      obtain rfl := hplace.unique hplace'
      exact ⟨h.unique h', rfl⟩
    | default hproject' huser => exact absurd h (huser _ hplace _)
  | default hproject huser =>
    cases h' with
    | project hnearest h' => exact absurd h' (hproject _ hnearest _)
    | user hproject' hplace h' => exact absurd h' (huser _ hplace _)
    | default => exact ⟨rfl, rfl⟩

lemma Fallback.unique (h : Fallback w fs c found) (h' : Fallback w fs c' found') : c = c' ∧ found = found' := by
  cases h with
  | user hplace h =>
    cases h' with
    | user hplace' h' =>
      obtain rfl := hplace.unique hplace'
      exact ⟨h.unique h', rfl⟩
    | default huser => exact absurd h (huser _ hplace _)
  | default huser =>
    cases h' with
    | user hplace h' => exact absurd h' (huser _ hplace _)
    | default => exact ⟨rfl, rfl⟩

lemma chosen_iff : Chosen w fs d c found ↔
    (∃ p, Nearest w fs d p ∧ Holds w fs p c ∧ found = some p) ∨
      (∀ p, Nearest w fs d p → ∀ c, ¬ Holds w fs p c) ∧ Fallback w fs c found := by
  constructor
  · intro h
    cases h with
    | project hnearest h => exact .inl ⟨_, hnearest, h, rfl⟩
    | user hproject hplace h => exact .inr ⟨hproject, .user hplace h⟩
    | default hproject huser => exact .inr ⟨hproject, .default huser⟩
  · rintro (⟨p, hnearest, h, rfl⟩ | ⟨hproject, ⟨hplace, h⟩ | huser⟩)
    · exact .project hnearest h
    · exact .user hproject hplace h
    · exact .default hproject huser

lemma Chosen.source (h : Chosen w fs d c found) :
    (∀ p, found = some p → Holds w fs p c) ∧ (found = none → c = {}) := by
  cases h with
  | project _ h | user _ _ h =>
    refine ⟨?_, by simp⟩
    rintro _ ⟨⟩
    exact h
  | default => simp

lemma load_holds {s : Session} (h : Holds w s.files p c) :
    ∃ s', load w (some p) d s = .ok (c, some p) s' ∧ s'.files = s.files := by
  obtain ⟨s', hload, hfiles⟩ := loadFile_holds h
  refine ⟨s', ?_, hfiles⟩
  simp only [load, bind, EStateM.bind, hload, pure, EStateM.pure]

lemma load_unusable {s : Session} {e : ConfigurationError} (h : Unusable w s.files p e) :
    load w (some p) d s = .error e s := by
  simp only [load, bind, EStateM.bind, loadFile_unusable h]

lemma load_some_ok {s s' : Session} (h : load w (some p) d s = .ok (c, found) s') :
    Holds w s.files p c ∧ found = some p ∧ s'.files = s.files := by
  rcases holds_or_unusable w s.files p with ⟨c', h'⟩ | ⟨e, h'⟩
  · obtain ⟨t, hload, hfiles⟩ := load_holds (d := d) h'
    rw [hload] at h
    cases h
    exact ⟨h', rfl, hfiles⟩
  · rw [load_unusable h'] at h
    cases h

lemma load_some_error {s s' : Session} {e : ConfigurationError} :
    load w (some p) d s = .error e s' ↔ Unusable w s.files p e ∧ s' = s := by
  constructor
  · intro h
    rcases holds_or_unusable w s.files p with ⟨c', h'⟩ | ⟨e', h'⟩
    · obtain ⟨t, hload, -⟩ := load_holds (d := d) h'
      rw [hload] at h
      cases h
    · rw [load_unusable h'] at h
      cases h
      exact ⟨h', rfl⟩
  · rintro ⟨h, rfl⟩
    exact load_unusable h

lemma load_none (w : Surroundings) (d : Path) (s : Session) :
    ∃ c found s', load w none d s = .ok (c, found) s' ∧ s'.files = s.files ∧
      Chosen w s.files d c found := by
  obtain ⟨c, found, s', hfirst, hfiles, h⟩ := firstUsable_ok w
    ((projectFile? w s.files d).toList ++ (userFile? w s.files).toList) s
  exact ⟨c, found, s', hfirst, hfiles, chosen_of_firstUsable h⟩

lemma load_none_ok {s s' : Session} (h : load w none d s = .ok (c, found) s') :
    Chosen w s.files d c found ∧ s'.files = s.files := by
  obtain ⟨c₀, found₀, s₀, hload, hfiles, hchosen⟩ := load_none w d s
  rw [hload] at h
  cases h
  exact ⟨hchosen, hfiles⟩

end

/-- A file that is asked for is the one that is loaded, and there is an error exactly if it cannot be used.
If no file is asked for there is no error: the nearest project file is loaded if it can be used, else the
user's file if it can be used, and else the defaults are taken. No file changes. -/
theorem load_precedence (w : Surroundings) (d : Path) (s : Session) :
    (∀ p c found, (∃ s', load w (some p) d s = .ok (c, found) s') ↔ Holds w s.files p c ∧ found = some p) ∧
    (∀ p e s', load w (some p) d s = .error e s' ↔ Unusable w s.files p e ∧ s' = s) ∧
    (∃ c found s', load w none d s = .ok (c, found) s') ∧
    (∀ c found, (∃ s', load w none d s = .ok (c, found) s') ↔ Chosen w s.files d c found) ∧
    ∀ explicit c found s', load w explicit d s = .ok (c, found) s' → s'.files = s.files ∧
      (∀ p, found = some p → Holds w s.files p c) ∧ (found = none → c = {}) := by
  obtain ⟨c₀, found₀, s₀, hload₀, -, hchosen₀⟩ := load_none w d s
  refine ⟨fun p c found => ⟨?_, ?_⟩, fun p e s' => load_some_error, ⟨c₀, found₀, s₀, hload₀⟩,
    fun c found => ⟨?_, fun h => ?_⟩, fun explicit c found s' h => ?_⟩
  · rintro ⟨s', h⟩
    exact ⟨(load_some_ok h).1, (load_some_ok h).2.1⟩
  · rintro ⟨h, rfl⟩
    obtain ⟨s', hload, -⟩ := load_holds (d := d) h
    exact ⟨s', hload⟩
  · rintro ⟨s', h⟩
    exact (load_none_ok h).1
  · obtain ⟨rfl, rfl⟩ := h.unique hchosen₀
    exact ⟨s₀, hload₀⟩
  · cases explicit with
    | none =>
      obtain ⟨hchosen, hfiles⟩ := load_none_ok h
      exact ⟨hfiles, hchosen.source⟩
    | some p =>
      obtain ⟨hholds, rfl, hfiles⟩ := load_some_ok h
      refine ⟨hfiles, ?_, by simp⟩
      rintro _ ⟨⟩
      exact hholds

def atHome : Surroundings where
  valueOf := fun name => if name = "HOME" then some "/h" else none
  workingDir := ["h"]
  accountHome := none
  program := fun _ _ => ⟨[], [], .exited 0⟩
  serve := fun _ _ => none

def languageFile (language : String) : Entry :=
  .file (Utf8.encode ("checker.language = \"" ++ language ++ "\"")) false

def shadowed : FileSystem := ⟨[
  (["h"], .directory), (["h", "docs"], .directory),
  (["h", "docs", ".languagetool-asciidoc.toml"], .directory),
  (["h", ".languagetool-asciidoc.toml"], languageFile "fr"),
  (["h", "languagetool-asciidoc.toml"], languageFile "de"),
  (["h", "broken.toml"], .file [0x5B] false)]⟩

def french : Settings where
  checker := { language := "fr" }

lemma holds_french : Holds atHome shadowed ⟨".languagetool-asciidoc.toml"⟩ french := by
  refine ⟨_, "checker.language = \"fr\"", by rfl, Utf8.decode?_encode _, ?_⟩
  decide +kernel

def userFiles : FileSystem := ⟨[
  (["h"], .directory), (["h", "docs"], .directory), (["h", ".config"], .directory),
  (["h", ".config", "languagetool-asciidoc"], .directory),
  (["h", ".config", "languagetool-asciidoc", "config.toml"], languageFile "fr"),
  (["x"], .directory), (["x", "languagetool-asciidoc"], .directory),
  (["x", "languagetool-asciidoc", "config.toml"], .file [0x5B] false)]⟩

def elsewhere : Surroundings :=
  { atHome with valueOf := fun name => if name = "XDG_CONFIG_HOME" then some "/x" else atHome.valueOf name }

lemma holds_user : Holds atHome userFiles ⟨"/h/.config/languagetool-asciidoc/config.toml"⟩ french := by
  refine ⟨_, "checker.language = \"fr\"", by rfl, Utf8.decode?_encode _, ?_⟩
  decide +kernel

lemma unusable_elsewhere : Unusable elsewhere userFiles ⟨"/x/languagetool-asciidoc/config.toml"⟩
    (.invalid ⟨"/x/languagetool-asciidoc/config.toml"⟩) := by
  have hread : userFiles.read elsewhere.workingDir ⟨"/x/languagetool-asciidoc/config.toml"⟩ = .ok [0x5B] := by rfl
  have htext : Utf8.decode? [0x5B] = some "[" := by decide +kernel
  exact .invalid hread htext (by decide +kernel)

theorem load_precedence_shadowed :
    (∃ s', load atHome none ⟨"docs"⟩ (.start shadowed) =
      .ok (french, some ⟨".languagetool-asciidoc.toml"⟩) s') ∧
    load atHome (some ⟨"docs"⟩) ⟨"docs"⟩ (.start shadowed) = .error (.io .isADirectory) (.start shadowed) ∧
    load atHome (some ⟨"broken.toml"⟩) ⟨"docs"⟩ (.start shadowed) =
      .error (.invalid ⟨"broken.toml"⟩) (.start shadowed) ∧
    (∃ s', load atHome none ⟨"docs"⟩ (.start userFiles) =
      .ok (french, some ⟨"/h/.config/languagetool-asciidoc/config.toml"⟩) s') ∧
    ∃ s', load elsewhere none ⟨"docs"⟩ (.start userFiles) = .ok ({}, none) s' := by
  obtain ⟨-, herror, -, hchosen, -⟩ := load_precedence atHome ⟨"docs"⟩ (.start shadowed)
  obtain ⟨-, -, -, huser, -⟩ := load_precedence atHome ⟨"docs"⟩ (.start userFiles)
  obtain ⟨-, -, -, hdefault, -⟩ := load_precedence elsewhere ⟨"docs"⟩ (.start userFiles)
  refine ⟨(hchosen _ _).mpr (.project ?_ holds_french), (herror _ _ _).mpr ⟨?_, rfl⟩,
    (herror _ _ _).mpr ⟨?_, rfl⟩, (huser _ _).mpr (.user ?_ ?_ holds_user), (hdefault _ _).mpr (.default ?_ ?_)⟩
  · have hparent : (Path.mk "docs").parent? = some ⟨""⟩ := by decide +kernel
    exact .above (by decide +kernel) (by decide +kernel) hparent (.hidden (by decide +kernel))
  · exact .directory (l := ["h", "docs"]) (by rfl)
  · have hread : shadowed.read atHome.workingDir ⟨"broken.toml"⟩ = .ok [0x5B] := by rfl
    have htext : Utf8.decode? [0x5B] = some "[" := by decide +kernel
    exact .invalid hread htext (by decide +kernel)
  · exact fun p hp => absurd hp (projectFile?_eq_none.mp (by decide +kernel) p)
  · exact ⟨⟨"/h/.config"⟩, by decide +kernel, by decide +kernel⟩
  · exact fun p hp => absurd hp (projectFile?_eq_none.mp (by decide +kernel) p)
  · have hplace : UserPlace elsewhere ⟨"/x/languagetool-asciidoc/config.toml"⟩ :=
      ⟨⟨"/x"⟩, by decide +kernel, by decide +kernel⟩
    exact fun p hp => hp.unique hplace ▸ unusable_elsewhere.not_holds

end AdocProse.Configuration
