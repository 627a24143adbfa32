import AdocProse.CommandLine.Run
import AdocProse.Proofs.Configuration.Precedence
import AdocProse.Proofs.System.Names
import Mathlib.Data.List.Infix

/-! Where the project file of a document is looked for. An absolute path without `..` leads to the nearest
file in the directory of the document and those above it, a relative one to the nearest one up to the
working directory only. -/

namespace AdocProse.Configuration

open CommandLine (startDir)
open FileSystem (spelled origin isFileAt)
open AdocProse.Path (named)

/-- The directories from `base ++ below` up to `base`. -/
def upwards (base : Location) (below : List String) : List Location :=
  below.inits.reverse.map (base ++ ·)

def nearest? (fs : FileSystem) (dirs : List Location) : Option Location :=
  (dirs.flatMap fun d => names.map fun name => d ++ [name]).find? fs.isFileAt

/-- A directory in which files with the names of project files have paths. -/
structure Searchable (w : Surroundings) (fs : FileSystem) (d : Path) : Prop where
  takes : ∀ name ∈ names, d.TakesNames name
  leads : ∃ l, fs.walk (origin w.workingDir d) d.pieces = .ok l

section

variable {w : Surroundings} {fs : FileSystem} {d q : Path} {name : String}

lemma nearest?_cons (fs : FileSystem) (d : Location) (ds : List Location) : nearest? fs (d :: ds) =
    if fs.isFileAt (d ++ [".languagetool-asciidoc.toml"]) then some (d ++ [".languagetool-asciidoc.toml"])
    else if fs.isFileAt (d ++ ["languagetool-asciidoc.toml"]) then some (d ++ ["languagetool-asciidoc.toml"])
    else nearest? fs ds := by
  rw [nearest?, List.flatMap_cons, find?_names]
  rfl

lemma nearest?_append (fs : FileSystem) (ds es : List Location) :
    nearest? fs (ds ++ es) = (nearest? fs ds).or (nearest? fs es) := by
  rw [nearest?, List.flatMap_append, List.find?_append]
  rfl

lemma nearest?_repeated (fs : FileSystem) (d : Location) (ds : List Location) :
    nearest? fs (d :: d :: ds) = nearest? fs (d :: ds) := by
  rw [nearest?_cons, nearest?_cons]
  split_ifs <;> rfl

lemma upwards_nil (base : Location) : upwards base [] = [base] := by
  simp [upwards]

lemma upwards_concat (base : Location) (below : List String) (name : String) :
    upwards base (below ++ [name]) = (base ++ (below ++ [name])) :: upwards base below := by
  simp [upwards, List.inits_append]

lemma upwards_append (base : Location) (below : List String) :
    upwards [] (base ++ below) = upwards base below ++ (upwards [] base).tail := by
  induction below using List.reverseRecOn with
  | nil =>
    rw [List.append_nil, upwards_nil]
    induction base using List.reverseRecOn with
    | nil => rfl
    | append_singleton base name _ =>
      rw [upwards_concat]
      rfl
  | append_singleton below name ih =>
    rw [← List.append_assoc, upwards_concat, ih, upwards_concat, List.nil_append, List.append_assoc,
      List.cons_append]

lemma isName_names (h : name ∈ names) : IsName name := by
  simp only [names, List.mem_cons, List.not_mem_nil, or_false] at h
  rcases h with rfl | rfl <;> exact ⟨by decide, by decide, by decide, by decide⟩

lemma Searchable.parent (h : Searchable w fs d) (hparent : d.parent? = some q) : Searchable w fs q := by
  obtain ⟨l, hwalk⟩ := h.leads
  exact ⟨fun name hname => (h.takes name hname).parent hparent, FileSystem.walk_parent hparent hwalk⟩

lemma Searchable.isFile_join (h : Searchable w fs d) (hname : name ∈ names) :
    fs.isFile w.workingDir (d.join name) = fs.isFileAt (spelled w.workingDir d ++ [name]) := by
  obtain ⟨l, hwalk⟩ := h.leads
  rw [FileSystem.isFile_join (isName_names hname) (h.takes name hname) hwalk,
    FileSystem.spelled_join (isName_names hname)]

lemma projectFile?_place (h : Searchable w fs d) : (projectFile? w fs d).map (spelled w.workingDir) =
    nearest? fs (d.ancestors.map (spelled w.workingDir)) := by
  induction d using Path.parentInduct with
  | step d ih =>
    have hhidden : ".languagetool-asciidoc.toml" ∈ names := by decide
    have hplain : "languagetool-asciidoc.toml" ∈ names := by decide
    have habove : ∃ above, d.ancestors = d :: above ∧
        (d.parent?.bind (projectFile? w fs)).map (spelled w.workingDir) =
          nearest? fs (above.map (spelled w.workingDir)) := by
      cases hparent : d.parent? with
      | none => exact ⟨[], Path.ancestors_top hparent, rfl⟩
      | some q => exact ⟨q.ancestors, Path.ancestors_parent hparent, ih q hparent (h.parent hparent)⟩
    obtain ⟨above, hancestors, hrest⟩ := habove
    rw [projectFile?_eq, h.isFile_join hhidden, h.isFile_join hplain, hancestors, List.map_cons, nearest?_cons,
      ← hrest]
    split_ifs
    · rw [Option.map_some, FileSystem.spelled_join (isName_names hhidden)]
    · rw [Option.map_some, FileSystem.spelled_join (isName_names hplain)]
    · rfl

lemma spelled_down (hdown : ['.', '.'] ∉ d.pieces) (workingDir : Location) :
    spelled workingDir d = origin workingDir d ++ (named d.pieces).map String.ofList := by
  rw [FileSystem.spelled_eq, Path.foldl_toward_down hdown]

lemma nearest?_ancestors (fs : FileSystem) (workingDir : Location) (hdown : ['.', '.'] ∉ d.pieces) :
    nearest? fs (d.ancestors.map (spelled workingDir)) =
      nearest? fs (upwards (origin workingDir d) ((named d.pieces).map String.ofList)) := by
  induction d using Path.parentInduct with
  | step d ih =>
    cases hparent : d.parent? with
    | none =>
      rw [Path.ancestors_top hparent, List.map_singleton, spelled_down hdown, Path.named_of_top hparent,
        List.map_nil, upwards_nil, List.append_nil]
    | some q =>
      have habove := ih q hparent (Path.down_parent hparent hdown)
      rw [FileSystem.origin_eq (Path.parent?_pieces hparent).1, Path.named_parent hparent] at habove
      rw [Path.ancestors_parent hparent, List.map_cons, ← List.singleton_append, nearest?_append, habove,
        ← nearest?_append, List.singleton_append, spelled_down hdown]
      -- Without a name the parent spells the same directory once more.
      rcases List.eq_nil_or_concat' (named d.pieces) with hnil | ⟨kept, name, hnamed⟩
      · rw [hnil, List.dropLast_nil, List.map_nil, upwards_nil, List.append_nil, nearest?_repeated]
      · rw [hnamed, List.dropLast_concat, List.map_append, List.map_singleton, upwards_concat]

example : (Path.mk "docs//new").ancestors.map (spelled ["h"]) = [["h", "docs", "new"], ["h", "docs"], ["h"]] := by
  decide +kernel

/-- A path of a document that only goes down, from the root or the working directory. -/
structure Plain (file : Path) : Prop where
  down : ['.', '.'] ∉ file.pieces
  named : named file.pieces ≠ []

lemma Plain.startDir {file : Path} (h : Plain file) : (startDir file).isAbsolute = file.isAbsolute ∧
    ['.', '.'] ∉ (startDir file).pieces ∧ Path.named (startDir file).pieces = (Path.named file.pieces).dropLast := by
  cases hparent : file.parent? with
  | none => exact absurd (Path.named_of_top hparent) h.named
  | some q =>
    have habsolute := (Path.parent?_pieces hparent).1
    have hnamed := Path.named_parent hparent
    have hdown := Path.down_parent hparent h.down
    rw [CommandLine.startDir, hparent]
    by_cases hempty : q.text = ""
    · obtain rfl : q = ⟨""⟩ := by rw [← hempty]
      simp only [if_true]
      exact ⟨habsolute, by decide, hnamed⟩
    · simp only [if_neg hempty]
      exact ⟨habsolute, hdown, hnamed⟩

/-- The directory of a document is there, and the path to it leaves room for the names of project files. -/
structure Reachable (w : Surroundings) (fs : FileSystem) (file : Path) : Prop where
  directory : fs.isDirectory w.workingDir (startDir file) = true
  short : Utf8.size (startDir file).text < 4068

lemma Reachable.searchable {file : Path} (h : Reachable w fs file) : Searchable w fs (startDir file) := by
  obtain ⟨hallowed, hleads⟩ := FileSystem.walk_of_isDirectory h.directory
  have hsizes : ∀ name ∈ names, Utf8.size name ≤ 27 := by decide
  refine ⟨fun name hname => ⟨hallowed.2.1, ?_⟩, hleads⟩
  have hsize := hsizes name hname
  have hshort := h.short
  omega

def usedPlace? (w : Surroundings) (fs : FileSystem) (file : Path) : Option Location :=
  (projectFile? w fs (startDir file)).map (spelled w.workingDir)

/-- The place of the project file that is nearest to a document, however the path to it is spelled. -/
def nearestPlace? (w : Surroundings) (fs : FileSystem) (file : Path) : Option Location :=
  nearest? fs (upwards [] (spelled w.workingDir file).dropLast)

lemma usedPlace?_plain {file : Path} (h : Reachable w fs file) (hplain : Plain file) : usedPlace? w fs file =
    nearest? fs (upwards (origin w.workingDir file) ((named file.pieces).dropLast.map String.ofList)) := by
  obtain ⟨habsolute, hdown, hnamed⟩ := hplain.startDir
  rw [usedPlace?, projectFile?_place h.searchable, nearest?_ancestors _ _ hdown, FileSystem.origin_eq habsolute, hnamed]

lemma nearestPlace?_plain {file : Path} (hplain : Plain file) : nearestPlace? w fs file =
    nearest? fs (upwards [] (origin w.workingDir file ++ (named file.pieces).dropLast.map String.ofList)) := by
  have hne : (named file.pieces).map String.ofList ≠ [] := by simpa using hplain.named
  rw [nearestPlace?, spelled_down hplain.down, List.dropLast_append_of_ne_nil hne, List.map_dropLast]

lemma or_eq_self_iff {α : Type} {a b : Option α} : a = a.or b ↔ a ≠ none ∨ b = none := by
  cases a <;> simp [eq_comm]

end

/-- The file at a place has these settings. -/
def SettingsAt (fs : FileSystem) (l : Location) (c : Settings) : Prop :=
  ∃ bytes executable text, fs.get? l = some (.file bytes executable) ∧ Utf8.decode? bytes = some text ∧
    Settings.ofText? text = some c

section

variable {w : Surroundings} {fs : FileSystem} {d p file : Path} {l : Location} {c c' : Settings}
  {found found' : Option Path}

lemma SettingsAt.unique (h : SettingsAt fs l c) (h' : SettingsAt fs l c') : c = c' := by
  obtain ⟨bytes, executable, text, hfile, htext, hc⟩ := h
  obtain ⟨bytes', executable', text', hfile', htext', hc'⟩ := h'
  rw [hfile, Option.some.injEq, Entry.file.injEq] at hfile'
  obtain ⟨rfl, rfl⟩ := hfile'
  exact settings_unique htext hc htext' hc'

lemma holds_iff (hfile : fs.isFile w.workingDir p = true) :
    Holds w fs p c ↔ SettingsAt fs (spelled w.workingDir p) c := by
  obtain ⟨content, executable, hlookup⟩ := FileSystem.isFile_iff.mp hfile
  have hread : fs.read w.workingDir p = .ok content := FileSystem.read_ok.mpr ⟨executable, hlookup⟩
  have hget := (FileSystem.lookup_place hlookup).2
  simp only [Holds, SettingsAt, hread, hget, Except.ok.injEq, Option.some.injEq, Entry.file.injEq]
  constructor
  · rintro ⟨bytes, text, rfl, h⟩
    exact ⟨content, executable, text, ⟨rfl, rfl⟩, h⟩
  · rintro ⟨bytes, executable', text, ⟨rfl, rfl⟩, h⟩
    exact ⟨content, text, rfl, h⟩

lemma chosen_place : Chosen w fs (startDir file) c found →
    (∃ l, usedPlace? w fs file = some l ∧ SettingsAt fs l c ∧ found.map (spelled w.workingDir) = some l) ∨
      (∀ l, usedPlace? w fs file = some l → ∀ c, ¬ SettingsAt fs l c) ∧ Fallback w fs c found := by
  intro h
  rcases chosen_iff.mp h with ⟨p, hnearest, hp, rfl⟩ | ⟨hproject, hfallback⟩
  · have hplace : usedPlace? w fs file = some (spelled w.workingDir p) := by
      rw [usedPlace?, projectFile?_eq_some.mpr hnearest, Option.map_some]
    exact .inl ⟨_, hplace, (holds_iff hnearest.isFile).mp hp, rfl⟩
  · refine .inr ⟨fun l hl c hc => ?_, hfallback⟩
    obtain ⟨p, hfile, rfl⟩ := Option.map_eq_some_iff.mp hl
    have hnearest := projectFile?_eq_some.mp hfile
    exact hproject p hnearest c ((holds_iff hnearest.isFile).mpr hc)

lemma chosen_same {file' : Path} (hplace : usedPlace? w fs file = usedPlace? w fs file')
    (h : Chosen w fs (startDir file) c found) (h' : Chosen w fs (startDir file') c' found') :
    c = c' ∧ found.map (spelled w.workingDir) = found'.map (spelled w.workingDir) := by
  rcases chosen_place h with ⟨l, hl, hc, hfound⟩ | ⟨hnone, hfallback⟩
  · rcases chosen_place h' with ⟨l', hl', hc', hfound'⟩ | ⟨hnone', -⟩
    · rw [hplace, hl', Option.some.injEq] at hl
      subst hl
      exact ⟨hc.unique hc', hfound.trans hfound'.symm⟩
    · exact absurd hc (hnone' l (hplace ▸ hl) c)
  · rcases chosen_place h' with ⟨l', hl', hc', -⟩ | ⟨-, hfallback'⟩
    · exact absurd hc' (hnone l' (hplace.trans hl') c')
    · obtain ⟨rfl, rfl⟩ := hfallback.unique hfallback'
      exact ⟨rfl, rfl⟩

end

/-- The project file that is used is the first one at the places that the path to the directory of the document
and those above it spell. If the path only goes down, these are the directory of the document and those
above it: all of them for an absolute path, and for a relative one those up to the working directory. The
settings are those of the file at the place, whatever path leads to it. -/
theorem project_file_of_document (w : Surroundings) (s : Session) :
    (∀ file, Reachable w s.files file → usedPlace? w s.files file =
      nearest? s.files ((startDir file).ancestors.map (spelled w.workingDir))) ∧
    (∀ file, Reachable w s.files file → Plain file → file.isAbsolute = true →
      usedPlace? w s.files file = nearestPlace? w s.files file) ∧
    (∀ file, Reachable w s.files file → Plain file → file.isAbsolute = false →
      (usedPlace? w s.files file = nearestPlace? w s.files file ↔
        usedPlace? w s.files file ≠ none ∨ nearest? s.files (upwards [] w.workingDir).tail = none)) ∧
    (∀ file l c c' found s', usedPlace? w s.files file = some l → SettingsAt s.files l c →
      load w none (startDir file) s = .ok (c', found) s' → c' = c ∧ found.map (spelled w.workingDir) = some l) ∧
    ∀ file file' c c' found found' s' s'', usedPlace? w s.files file = nearestPlace? w s.files file →
      usedPlace? w s.files file' = nearestPlace? w s.files file' →
      spelled w.workingDir file = spelled w.workingDir file' →
      load w none (startDir file) s = .ok (c, found) s' → load w none (startDir file') s = .ok (c', found') s'' →
      c = c' ∧ found.map (spelled w.workingDir) = found'.map (spelled w.workingDir) := by
  refine ⟨fun file h => projectFile?_place h.searchable, ?_, ?_, ?_, ?_⟩
  · intro file h hplain habsolute
    rw [usedPlace?_plain h hplain, nearestPlace?_plain hplain, origin, if_pos habsolute, List.nil_append]
  · intro file h hplain hrelative
    rw [nearestPlace?_plain hplain, upwards_append, nearest?_append, ← usedPlace?_plain h hplain, or_eq_self_iff,
      origin, hrelative]
    rfl
  · intro file l c c' found s' hplace hc hload
    rcases chosen_place (load_none_ok hload).1 with ⟨l', hl', hc', hfound⟩ | ⟨hnone, -⟩
    · rw [hplace, Option.some.injEq] at hl'
      subst hl'
      exact ⟨hc'.unique hc, hfound⟩
    · exact absurd hc (hnone l hplace c)
  · intro file file' c c' found found' s' s'' hfile hfile' hsame hload hload'
    have hplace : usedPlace? w s.files file = usedPlace? w s.files file' := by
      rw [hfile, hfile', nearestPlace?, nearestPlace?, hsame]
    exact chosen_same hplace (load_none_ok hload).1 (load_none_ok hload').1

def inDocs : Surroundings :=
  { atHome with workingDir := ["h", "docs"] }

def withDocument : FileSystem :=
  shadowed.put ["h", "docs", "d.adoc"] (.file [97] false)

lemma frenchAt : SettingsAt withDocument ["h", ".languagetool-asciidoc.toml"] french := by
  refine ⟨_, _, "checker.language = \"fr\"", rfl, Utf8.decode?_encode _, ?_⟩
  decide +kernel

theorem project_file_of_document_below :
    usedPlace? inDocs withDocument ⟨"/h/docs/d.adoc"⟩ = some ["h", ".languagetool-asciidoc.toml"] ∧
    usedPlace? inDocs withDocument ⟨"d.adoc"⟩ ≠ nearestPlace? inDocs withDocument ⟨"d.adoc"⟩ ∧
    (∃ found s', load inDocs none ⟨"/h/docs"⟩ (.start withDocument) = .ok (french, found) s') ∧
    ∃ found s', load inDocs none ⟨"/h/./docs"⟩ (.start withDocument) = .ok (french, found) s' := by
  obtain ⟨-, habsolute, hrelative, hsettings, hsame⟩ := project_file_of_document inDocs (.start withDocument)
  have hbelow : Reachable inDocs withDocument ⟨"/h/docs/d.adoc"⟩ := ⟨by decide +kernel, by decide +kernel⟩
  have hdotted : Reachable inDocs withDocument ⟨"/h/./docs//d.adoc"⟩ := ⟨by decide +kernel, by decide +kernel⟩
  have hhere : Reachable inDocs withDocument ⟨"d.adoc"⟩ := ⟨by decide +kernel, by decide +kernel⟩
  have hnearest : nearestPlace? inDocs withDocument ⟨"/h/docs/d.adoc"⟩ =
      some ["h", ".languagetool-asciidoc.toml"] := by decide +kernel
  have hused := habsolute _ hbelow ⟨by decide +kernel, by decide +kernel⟩ (by decide +kernel)
  have hused' := habsolute _ hdotted ⟨by decide +kernel, by decide +kernel⟩ (by decide +kernel)
  have hstopped := hrelative _ hhere ⟨by decide +kernel, by decide +kernel⟩ (by decide +kernel)
  have hdir : CommandLine.startDir ⟨"/h/docs/d.adoc"⟩ = ⟨"/h/docs"⟩ := by decide +kernel
  have hdir' : CommandLine.startDir ⟨"/h/./docs//d.adoc"⟩ = ⟨"/h/./docs"⟩ := by decide +kernel
  obtain ⟨c, found, s', hload, -⟩ := load_none inDocs ⟨"/h/docs"⟩ (.start withDocument)
  obtain ⟨c', found', s'', hload', -⟩ := load_none inDocs ⟨"/h/./docs"⟩ (.start withDocument)
  obtain ⟨rfl, -⟩ := hsettings _ _ _ _ _ _ (hused.trans hnearest) frenchAt (hdir.symm ▸ hload)
  obtain ⟨rfl, -⟩ := hsame _ _ _ _ _ _ _ _ hused hused' (by decide +kernel) (hdir.symm ▸ hload) (hdir'.symm ▸ hload')
  refine ⟨hused.trans hnearest, fun h => ?_, ⟨found, s', hload⟩, found', s'', hload'⟩
  rcases hstopped.mp h with hfound | habove
  · exact hfound (by decide +kernel)
  · exact absurd habove (by decide +kernel)

/-- Every file that has the name of a project file can be used. -/
def AllUsable (fs : FileSystem) : Prop :=
  ∀ l, ∀ name ∈ names, fs.isFileAt (l ++ [name]) = true → ∃ c, SettingsAt fs (l ++ [name]) c

lemma allUsable_withDocument : AllUsable withDocument := by
  intro l name hname hfile
  have hplaces : ∀ entry ∈ withDocument.entries, (∃ name ∈ names, entry.1.getLast? = some name) →
      entry.2 ≠ .directory → entry.1 = ["h", ".languagetool-asciidoc.toml"] ∨
        entry.1 = ["h", "languagetool-asciidoc.toml"] := by decide +kernel
  obtain ⟨bytes, executable, hget⟩ := FileSystem.isFileAt_iff.mp hfile
  have hentry := FileSystem.mem_entries (by simp) hget
  have hplace : l ++ [name] = ["h", ".languagetool-asciidoc.toml"] ∨
      l ++ [name] = ["h", "languagetool-asciidoc.toml"] :=
    hplaces _ hentry ⟨name, hname, List.getLast?_concat⟩ (by simp)
  rcases hplace with hl | hl <;> rw [hl]
  · exact ⟨_, frenchAt⟩
  · exact ⟨{ checker := { language := "de" } }, _, _, "checker.language = \"de\"", rfl, Utf8.decode?_encode _,
      by decide +kernel⟩

/-- A relative path does not lead to the project file above the working directory. -/
theorem search_stops_at_workingDir :
    ¬ ∀ (w : Surroundings) (fs : FileSystem) (file : Path) (found : Location × Entry), AllUsable fs →
      fs.lookup w.workingDir file = .ok found → usedPlace? w fs file = nearestPlace? w fs file := by
  intro h
  have hlookup : withDocument.lookup inDocs.workingDir ⟨"d.adoc"⟩ =
      .ok (["h", "docs", "d.adoc"], .file [97] false) := by decide +kernel
  have hused := h inDocs withDocument ⟨"d.adoc"⟩ _ allUsable_withDocument hlookup
  exact absurd hused (by decide +kernel)

end AdocProse.Configuration
