import AdocProse.Proofs.Configuration.Discovery
import Mathlib.Data.List.Find

/-! What ignoring a file means. If the project file cannot be used, the user's file is next, as if there were
no project file at all: project files further up are not looked for. -/

namespace AdocProse.Configuration

open FileSystem (spelled)

def tried (w : Surroundings) (fs : FileSystem) (d : Path) : List Path :=
  (projectFile? w fs d).toList ++ (userFile? w fs).toList

/-- The files that are ignored before one is used, and why. -/
def ignored (w : Surroundings) (fs : FileSystem) : List Path → List (Path × ConfigurationError)
  | [] => []
  | p :: ps =>
    match readFile fs w.workingDir p with
    | .ok _ => []
    | .error e => (p, e) :: ignored w fs ps

def ignoring (report : Path × ConfigurationError) : Event :=
  .warning ("Ignoring config " ++ report.1.text ++ ": " ++ report.2.text)

def loading (p : Path) : Event :=
  .info ("Loaded config from: " ++ p.text)

section

variable {w : Surroundings} {fs : FileSystem} {d p q : Path} {l : Location} {c : Settings} {found : Option Path}
  {e : ConfigurationError} {s s' : Session}

lemma firstUsable_journal (w : Surroundings) (ps : List Path) (s : Session)
    (h : firstUsable w ps s = .ok (c, found) s') :
    s'.journal = s.journal ++ (ignored w s.files ps).map ignoring ++ found.toList.map loading := by
  induction ps generalizing s with
  | nil =>
    cases h
    simp [ignored]
  | cons p ps ih =>
    cases hread : readFile s.files w.workingDir p with
    | ok c =>
      simp only [firstUsable, bind, EStateM.bind, Action.attempt, loadFile_ok hread, pure, EStateM.pure] at h
      cases h
      simp [ignored, hread, loading]
    | error e =>
      simp only [firstUsable, bind, EStateM.bind, Action.attempt, loadFile_error hread, Action.warn,
        Action.record] at h
      rw [ih _ h, ignored, hread]
      simp [ignoring]

example : ignoring (⟨"a.toml"⟩, .invalid ⟨"a.toml"⟩) =
    .warning "Ignoring config a.toml: invalid config a.toml: TOML parse error" := by decide +kernel

lemma mem_ignored {ps : List Path} (h : (p, e) ∈ ignored w fs ps) : p ∈ ps ∧ Unusable w fs p e := by
  induction ps with
  | nil => cases h
  | cons q ps ih =>
    rw [ignored] at h
    cases hread : readFile fs w.workingDir q with
    | ok c =>
      rw [hread] at h
      cases h
    | error e' =>
      rw [hread] at h
      rcases List.mem_cons.mp h with heq | hrest
      · cases heq
        exact ⟨List.mem_cons_self, readFile_error.mp hread⟩
      · exact ⟨List.mem_cons_of_mem _ (ih hrest).1, (ih hrest).2⟩

lemma first_unusable {ps : List Path} (h : (p, e) ∈ ignored w fs (q :: ps)) (c : Settings) : ¬ Holds w fs q c := by
  intro hc
  rw [ignored, readFile_holds hc] at h
  cases h

lemma mem_tried (h : p ∈ tried w fs d) : Nearest w fs d p ∨ userFile? w fs = some p := by
  rw [tried, List.mem_append, Option.mem_toList, Option.mem_toList] at h
  exact h.imp_left projectFile?_eq_some.mp

lemma isFile_of_tried (h : p ∈ tried w fs d) : fs.isFile w.workingDir p = true := by
  rcases mem_tried h with hnearest | huser
  · exact hnearest.isFile
  · exact (Option.filter_eq_some_iff.mp huser).2

lemma nearest_unusable (h : (p, e) ∈ ignored w fs (tried w fs d)) (hnearest : Nearest w fs d q) (c : Settings) :
    ¬ Holds w fs q c := by
  rw [tried, projectFile?_eq_some.mpr hnearest, Option.toList_some, List.singleton_append] at h
  exact first_unusable h c

lemma candidate_last (h : p ∈ candidates d) (workingDir : Location) :
    ∃ name ∈ names, (spelled workingDir p).getLast? = some name := by
  obtain ⟨dir, -, hp⟩ := List.mem_flatMap.mp h
  obtain ⟨name, hname, rfl⟩ := List.mem_map.mp hp
  exact ⟨name, hname, by rw [FileSystem.spelled_join (isName_names hname), List.getLast?_concat]⟩

lemma UserPlace.last (h : UserPlace w p) (workingDir : Location) :
    (spelled workingDir p).getLast? = some "config.toml" := by
  obtain ⟨dir, -, rfl⟩ := h
  have hname : IsName "config.toml" := ⟨by decide, by decide, by decide, by decide⟩
  rw [FileSystem.spelled_join hname, List.getLast?_concat]

lemma candidate_apart (hp : p ∈ candidates d) (hq : UserPlace w q) (workingDir : Location) :
    spelled workingDir p ≠ spelled workingDir q := by
  intro hsame
  obtain ⟨name, hname, hlast⟩ := candidate_last hp workingDir
  rw [hsame, hq.last, Option.some.injEq] at hlast
  subst hlast
  exact absurd hname (by decide)

lemma Nearest.candidate (h : Nearest w fs d p) : p ∈ candidates d :=
  List.mem_of_find?_eq_some (projectFile?_eq_some.mpr h)

lemma holds_erase (h : fs.get? l ≠ some .directory) :
    Holds w (fs.erase l) p c ↔ Holds w fs p c ∧ spelled w.workingDir p ≠ l := by
  simp only [Holds, FileSystem.read_erase h]
  constructor
  · rintro ⟨bytes, text, ⟨hread, hother⟩, hc⟩
    exact ⟨⟨bytes, text, hread, hc⟩, hother⟩
  · rintro ⟨⟨bytes, text, hread, hc⟩, hother⟩
    exact ⟨bytes, text, ⟨hread, hother⟩, hc⟩

lemma nearest_erase (h : fs.get? l ≠ some .directory) (hother : ∀ q ∈ candidates d, spelled w.workingDir q ≠ l) :
    Nearest w (fs.erase l) d p ↔ Nearest w fs d p := by
  have hfind : projectFile? w (fs.erase l) d = projectFile? w fs d := List.find?_congr fun q hq => by
    rw [Bool.eq_iff_iff, FileSystem.isFile_erase h, and_iff_left (hother q hq)]
  rw [← projectFile?_eq_some, ← projectFile?_eq_some, hfind]

lemma Fallback.erase (h : Fallback w fs c found) (hl : fs.get? l ≠ some .directory)
    (hother : ∀ u, UserPlace w u → ∀ c, Holds w fs u c → spelled w.workingDir u ≠ l) :
    Fallback w (fs.erase l) c found := by
  cases h with
  | user hplace h => exact .user hplace ((holds_erase hl).mpr ⟨h, hother _ hplace _ h⟩)
  | default huser => exact .default fun u hplace c hc => huser u hplace c ((holds_erase hl).mp hc).1

section

variable (hignored : (p, e) ∈ ignored w fs (tried w fs d))
include hignored

lemma fallback_of_ignored (hchosen : Chosen w fs d c found) : Fallback w fs c found := by
  rcases chosen_iff.mp hchosen with ⟨q, hnearest, hq, -⟩ | ⟨-, hfallback⟩
  · exact absurd hq (nearest_unusable hignored hnearest c)
  · exact hfallback

lemma not_directory : fs.get? (spelled w.workingDir p) ≠ some .directory := by
  obtain ⟨content, executable, hlookup⟩ := FileSystem.isFile_iff.mp (isFile_of_tried (mem_ignored hignored).1)
  rw [(FileSystem.lookup_place hlookup).2]
  simp

lemma fallback_without (h : Fallback w fs c found) : Fallback w (fs.erase (spelled w.workingDir p)) c found := by
  obtain ⟨htried, hunusable⟩ := mem_ignored hignored
  refine h.erase (not_directory hignored) fun u hplace c hc => ?_
  rcases mem_tried htried with hnearest | huser
  · exact (candidate_apart hnearest.candidate hplace _).symm
  · obtain rfl := hplace.unique (.of_userFile? huser)
    exact absurd hc (hunusable.not_holds c)

lemma chosen_without (hchosen : Chosen w fs d c found) :
    Chosen w (fs.erase (spelled w.workingDir p)) d c found ↔
      ∀ q, Nearest w (fs.erase (spelled w.workingDir p)) d q →
        ∀ c, ¬ Holds w (fs.erase (spelled w.workingDir p)) q c := by
  have hfallback := fallback_of_ignored hignored hchosen
  rw [chosen_iff]
  constructor
  · rintro (⟨q, hnearest, -, rfl⟩ | ⟨hproject, -⟩)
    · cases hfallback with
      | user hplace => exact absurd rfl (candidate_apart hnearest.candidate hplace w.workingDir)
    · exact hproject
  · exact fun hproject => .inr ⟨hproject, fallback_without hignored hfallback⟩

lemma user_without (huser : UserPlace w p) (hnearest : Nearest w (fs.erase (spelled w.workingDir p)) d q)
    (c : Settings) : ¬ Holds w (fs.erase (spelled w.workingDir p)) q c := by
  have hdirectory := not_directory hignored
  rw [nearest_erase hdirectory fun q hq => candidate_apart hq huser _] at hnearest
  exact fun hc => nearest_unusable hignored hnearest c ((holds_erase hdirectory).mp hc).1

end

lemma load_none_iff : (∃ s', load w none d s = .ok (c, found) s') ↔ Chosen w s.files d c found := by
  obtain ⟨c₀, found₀, s₀, hload, -, hchosen⟩ := load_none w d s
  constructor
  · rintro ⟨s', h⟩
    exact (load_none_ok h).1
  · intro h
    obtain ⟨rfl, rfl⟩ := h.unique hchosen
    exact ⟨s₀, hload⟩

end

def without (w : Surroundings) (s : Session) (p : Path) : Session :=
  ⟨s.files.erase (spelled w.workingDir p), s.journal⟩

/-- If a file is ignored, what is used is what would be used without any project file. Without the ignored
file the same would be used exactly if no other project file that can be used is nearest then, and so it
would without the user's file. -/
theorem ignored_file_fallback (w : Surroundings) (d : Path) (s : Session) : ∃ c found s',
    load w none d s = .ok (c, found) s' ∧
    s'.journal = s.journal ++ (ignored w s.files (tried w s.files d)).map ignoring ++ found.toList.map loading ∧
    ∀ p e, (p, e) ∈ ignored w s.files (tried w s.files d) →
      Unusable w s.files p e ∧ Fallback w s.files c found ∧
      ((∃ s'', load w none d (without w s p) = .ok (c, found) s'') ↔
        ∀ q, Nearest w (without w s p).files d q → ∀ c', ¬ Holds w (without w s p).files q c') ∧
      (UserPlace w p → ∃ s'', load w none d (without w s p) = .ok (c, found) s'') := by
  obtain ⟨c, found, s', hload, -, hchosen⟩ := load_none w d s
  refine ⟨c, found, s', hload, firstUsable_journal w _ s hload, fun p e hignored => ?_⟩
  have hwithout := chosen_without hignored hchosen
  refine ⟨(mem_ignored hignored).2, fallback_of_ignored hignored hchosen, load_none_iff.trans hwithout,
    fun huser => load_none_iff.mpr (hwithout.mpr fun q hnearest => user_without hignored huser hnearest)⟩

/-- The project file in the directory and the user's file cannot be used, the project file above can. -/
def brokenBelow : FileSystem := ⟨[
  (["h"], .directory), (["h", "docs"], .directory),
  (["h", "docs", ".languagetool-asciidoc.toml"], .file [0x5B] false),
  (["h", ".languagetool-asciidoc.toml"], languageFile "fr"),
  (["h", ".config"], .directory), (["h", ".config", "languagetool-asciidoc"], .directory),
  (["h", ".config", "languagetool-asciidoc", "config.toml"], .file [0x5B] false)]⟩

def brokenProject : Path := ⟨"/h/docs/.languagetool-asciidoc.toml"⟩

def brokenUser : Path := ⟨"/h/.config/languagetool-asciidoc/config.toml"⟩

lemma brokenProject_ignored : (brokenProject, .invalid brokenProject) ∈
    ignored atHome brokenBelow (tried atHome brokenBelow ⟨"/h/docs"⟩) := by decide +kernel

lemma nearest_above : Nearest atHome (without atHome (.start brokenBelow) brokenProject).files ⟨"/h/docs"⟩
    ⟨"/h/.languagetool-asciidoc.toml"⟩ := by
  have hparent : (Path.mk "/h/docs").parent? = some ⟨"/h"⟩ := by decide +kernel
  exact .above (by decide +kernel) (by decide +kernel) hparent (.hidden (by decide +kernel))

lemma holds_above : Holds atHome (without atHome (.start brokenBelow) brokenProject).files
    ⟨"/h/.languagetool-asciidoc.toml"⟩ french := by
  refine ⟨_, "checker.language = \"fr\"", by rfl, Utf8.decode?_encode _, ?_⟩
  decide +kernel

theorem ignored_file_fallback_broken :
    (∃ s', load atHome none ⟨"/h/docs"⟩ (.start brokenBelow) = .ok ({}, none) s') ∧
    (¬ ∃ s', load atHome none ⟨"/h/docs"⟩ (without atHome (.start brokenBelow) brokenProject) =
      .ok ({}, none) s') ∧
    ∃ s', load atHome none ⟨"/h/docs"⟩ (without atHome (.start brokenBelow) brokenUser) = .ok ({}, none) s' := by
  obtain ⟨c, found, s', hload, -, hignored⟩ := ignored_file_fallback atHome ⟨"/h/docs"⟩ (.start brokenBelow)
  have huser : UserPlace atHome brokenUser := ⟨⟨"/h/.config"⟩, by decide +kernel, by decide +kernel⟩
  obtain ⟨-, hfallback, hproject, -⟩ := hignored _ _ brokenProject_ignored
  obtain ⟨hunusable, -, -, hsame⟩ := hignored brokenUser (.invalid brokenUser) (by decide +kernel)
  cases hfallback with
  | user hplace h =>
    obtain rfl := hplace.unique huser
    exact absurd h (hunusable.not_holds c)
  | default =>
    exact ⟨⟨s', hload⟩, fun h => hproject.mp h _ nearest_above _ holds_above, hsame huser⟩

/-- A project file that can be used is not looked for above one that cannot. -/
theorem ignored_file_hides : ¬ ∀ (w : Surroundings) (d : Path) (s s' : Session) (c : Settings) (found : Option Path)
    (p : Path) (e : ConfigurationError), load w none d s = .ok (c, found) s' →
      (p, e) ∈ ignored w s.files (tried w s.files d) → ∃ s'', load w none d (without w s p) = .ok (c, found) s'' := by
  intro h
  obtain ⟨c, found, s', hload, -, hchosen⟩ := load_none atHome ⟨"/h/docs"⟩ (.start brokenBelow)
  have hsame := h _ _ _ _ _ _ _ _ hload brokenProject_ignored
  exact (chosen_without brokenProject_ignored hchosen).mp (load_none_iff.mp hsame) _ nearest_above _ holds_above

end AdocProse.Configuration
