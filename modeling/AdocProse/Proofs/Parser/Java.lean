import AdocProse.Parser.Java
import AdocProse.Proofs.System.Names

/-! Java is the first executable file at `bin/java` in `$JAVA_HOME` and at `java` in the directories of `$PATH`.
With a colon in `$JAVA_HOME` its `bin` is taken for a list of directories, and what is searched are these. -/

namespace AdocProse.Java

open FileSystem

/-- A text that lists directories: at least one, with colons between them and in none of them. -/
structure Lists (text : String) (dirs : List Path) : Prop where
  ne_nil : dirs ≠ []
  whole : ∀ dir ∈ dirs, ':' ∉ dir.text.toList
  joined : text.toList = Pieces.join ':' (dirs.map fun dir => dir.text.toList)

/-- What the variables say: `$JAVA_HOME` is not set or an absolute path, and `$PATH` lists absolute directories or
is not set. -/
structure Says (w : Surroundings) (home : Option Path) (dirs : List Path) : Prop where
  homeAbsolute : ∀ h ∈ home, h.isAbsolute = true
  home : w.valueOf "JAVA_HOME" = home.map Path.text
  path : w.valueOf "PATH" = none ∧ dirs = [] ∨ ∃ text, w.valueOf "PATH" = some text ∧ Lists text dirs
  pathAbsolute : ∀ dir ∈ dirs, dir.isAbsolute = true

def promised (home : Option Path) (dirs : List Path) : List Path :=
  home.toList.map (fun h => (h.join "bin").join "java") ++ dirs.map fun dir => dir.join "java"

/-- The places of a list of directories of which the relative ones are meant in the first argument. -/
def places (w : Surroundings) (bin : Path) (parts : List Path) : List Path :=
  parts.map fun part => ((expandHome w part).within bin).join "java"

def Runnable (w : Surroundings) (fs : FileSystem) (p : Path) : Prop :=
  ∃ content, fs.lookup w.workingDir p = .ok (spelled w.workingDir p, .file content true)

/-- The first one of some paths at which there is an executable file. -/
def IsFirst (w : Surroundings) (fs : FileSystem) (ps : List Path) (p : Path) : Prop :=
  Runnable w fs p ∧ ∃ before after, ps = before ++ p :: after ∧ ∀ q ∈ before, ¬ Runnable w fs q

/-- Without a configured path the first one of some paths is found, and the only failure is that there is none. -/
structure Searches (w : Surroundings) (fs : FileSystem) (ps : List Path) : Prop where
  found : ∀ p, find w fs none = .ok p ↔ IsFirst w fs ps p
  missing : ∀ e, find w fs none = .error e ↔ e = .javaNotFound ∧ ∀ p ∈ ps, ¬ Runnable w fs p

section

variable {w : Surroundings} {fs : FileSystem} {home : Option Path} {h p : Path} {dirs parts ps : List Path}
  {text : String}

lemma isExecutable_iff : fs.isExecutable w.workingDir p = true ↔ Runnable w fs p := by
  rw [isExecutable, Runnable]
  cases hlookup : fs.lookup w.workingDir p with
  | error kind => simp
  | ok found =>
    obtain ⟨l, e⟩ := found
    obtain ⟨rfl, -⟩ := lookup_place hlookup
    cases e <;> simp

lemma isFirst_iff : IsFirst w fs ps p ↔ ps.find? (fs.isExecutable w.workingDir) = some p := by
  simp only [List.find?_eq_some_iff_append, IsFirst, isExecutable_iff, Bool.not_eq_true', ← Bool.not_eq_true]

lemma isFirst_cons (h : Runnable w fs p) (ps : List Path) : IsFirst w fs (p :: ps) p :=
  ⟨h, [], ps, rfl, by simp⟩

lemma searches_candidates (w : Surroundings) (fs : FileSystem) : Searches w fs (candidates w) := by
  cases hfind : (candidates w).find? (fs.isExecutable w.workingDir) with
  | none =>
    have hnone : ∀ p ∈ candidates w, ¬ Runnable w fs p := by
      simpa only [List.find?_eq_none, isExecutable_iff] using hfind
    have hresult : find w fs none = .error .javaNotFound := by simp only [find, hfind]
    refine ⟨fun p => ?_, fun e => ?_⟩
    · simp [hresult, isFirst_iff, hfind]
    · rw [hresult, Except.error.injEq, and_iff_left hnone, eq_comm]
  | some q =>
    have hresult : find w fs none = .ok q := by simp only [find, hfind]
    refine ⟨fun p => ?_, fun e => ?_⟩
    · rw [hresult, Except.ok.injEq, isFirst_iff, hfind, Option.some.injEq]
    · have hq := List.mem_of_find?_eq_some hfind
      have hrunnable := isExecutable_iff.mp (List.find?_some hfind)
      simp only [hresult, reduceCtorEq, false_iff, not_and]
      exact fun _ hnone => hnone q hq hrunnable

lemma lists_split (text : String) :
    Lists text ((Pieces.split ':' text.toList).map fun cs => ⟨String.ofList cs⟩) := by
  refine ⟨by simpa using Pieces.split_ne_nil ':' text.toList, ?_, ?_⟩
  · rintro dir hdir
    obtain ⟨cs, hcs, rfl⟩ := List.mem_map.mp hdir
    rw [String.toList_ofList]
    exact Pieces.separator_notMem hcs
  · have hsame : (fun dir : Path => dir.text.toList) ∘ (fun cs => ⟨String.ofList cs⟩) = id := by
      funext cs
      exact String.toList_ofList
    rw [List.map_map, hsame, List.map_id, Pieces.join_split]

lemma Lists.split (h : Lists text dirs) : Pieces.split ':' text.toList = dirs.map fun dir => dir.text.toList := by
  rw [h.joined, Pieces.split_join (by simpa using h.ne_nil)]
  simpa using h.whole

lemma Lists.directories (h : Lists text dirs) (w : Surroundings) (base : Path) :
    directories w base text = dirs.map fun dir => (expandHome w dir).within base := by
  rw [Java.directories, h.split, List.map_map]
  simp

lemma Lists.below (h : Lists text dirs) (w : Surroundings) (base : Path) :
    below w base text = places w base dirs := by
  rw [Java.below, h.directories, places, List.map_map]
  rfl

lemma expandHome_absolute (h : p.isAbsolute = true) (w : Surroundings) : expandHome w p = p := by
  rw [Path.isAbsolute, beq_iff_eq] at h
  obtain ⟨cs, hcs⟩ := List.head?_eq_some_iff.mp h
  rw [expandHome, Path.pieces, hcs, Pieces.split_separator]

lemma places_absolute (h : ∀ dir ∈ dirs, dir.isAbsolute = true) (w : Surroundings) (base : Path) :
    places w base dirs = dirs.map fun dir => dir.join "java" := by
  refine List.map_congr_left fun dir hdir => ?_
  rw [expandHome_absolute (h dir hdir), Path.within, if_pos (h dir hdir)]

lemma colon_mem_bin (h : Path) : ':' ∈ (h.join "bin").text.toList ↔ ':' ∈ h.text.toList := by
  have hwhole : '/' ∉ "bin".toList := by decide
  rcases Path.join_cases hwhole h with ⟨htext, hjoin⟩ | ⟨cs, htext, hjoin⟩ | ⟨htext, hjoin⟩ <;> rw [hjoin] <;>
    simp [htext]

lemma bin_absolute (h : p.isAbsolute = true) : (p.join "bin").isAbsolute = true := by
  rw [Path.isAbsolute_join (by decide), h]

lemma places_bin (h : p.isAbsolute = true) (hparts : Lists (p.join "bin").text parts) :
    places w (p.join "bin") parts = [(p.join "bin").join "java"] ↔ ':' ∉ p.text.toList := by
  rw [← not_iff_not.mpr (colon_mem_bin p)]
  constructor
  · intro hplaces
    obtain ⟨part, rfl⟩ := List.length_eq_one_iff.mp (by simpa [places] using congrArg List.length hplaces)
    rw [hparts.joined]
    exact hparts.whole part List.mem_cons_self
  · intro hcolon
    have hbin : Lists (p.join "bin").text [p.join "bin"] := ⟨by simp, by simpa using hcolon, rfl⟩
    rw [← hparts.below, hbin.below, places_absolute (by simpa using bin_absolute h), List.map_singleton]

lemma Says.below_path (h : Says w home dirs) :
    ((w.valueOf "PATH").map (below w w.workingPath)).getD [] = dirs.map fun dir => dir.join "java" := by
  rcases h.path with ⟨hpath, rfl⟩ | ⟨text, hpath, hlists⟩ <;> rw [hpath]
  · rfl
  · rw [Option.map_some, Option.getD_some, hlists.below, places_absolute h.pathAbsolute]

lemma Says.candidates_home (hgiven : Says w (some h) dirs) (hparts : Lists (h.join "bin").text parts) :
    candidates w = places w (h.join "bin") parts ++ dirs.map fun dir => dir.join "java" := by
  rw [← hgiven.below_path, ← hparts.below, candidates, hgiven.home]
  rfl

lemma Says.candidates_promised (hgiven : Says w home dirs) (hcolon : ∀ h ∈ home, ':' ∉ h.text.toList) :
    candidates w = promised home dirs := by
  cases home with
  | none =>
    rw [promised, ← hgiven.below_path, candidates, hgiven.home]
    rfl
  | some h =>
    have hparts := lists_split (h.join "bin").text
    rw [hgiven.candidates_home hparts, (places_bin (hgiven.homeAbsolute h rfl) hparts).mpr (hcolon h rfl)]
    rfl

lemma Says.candidates_front (hgiven : Says w (some h) dirs) {front rest : List Char}
    (htext : h.text.toList = front ++ ':' :: rest) (hfront : ':' ∉ front) :
    ∃ more, candidates w = (Path.mk (String.ofList front)).join "java" :: more := by
  have hwhole : '/' ∉ "bin".toList := by decide
  obtain ⟨behind, hbin⟩ : ∃ behind, (h.join "bin").text.toList = front ++ ':' :: behind := by
    obtain ⟨more, hjoin⟩ : ∃ more, (h.join "bin").text.toList = h.text.toList ++ more := by
      rcases Path.join_cases hwhole h with ⟨hempty, hjoin⟩ | ⟨cs, hend, hjoin⟩ | ⟨-, hjoin⟩
      · exact ⟨_, by rw [hjoin, hempty, List.nil_append]⟩
      · exact ⟨"bin".toList, by rw [hjoin, hend, List.append_assoc, List.singleton_append]⟩
      · exact ⟨_, hjoin⟩
    exact ⟨rest ++ more, by rw [hjoin, htext, List.append_assoc, List.cons_append]⟩
  -- The front begins with the slash that the home directory begins with, so it is taken as it is.
  have habsolute : (Path.mk (String.ofList front)).isAbsolute = true := by
    have hhome := hgiven.homeAbsolute h rfl
    rw [Path.isAbsolute, htext] at hhome
    rw [Path.isAbsolute, String.toList_ofList]
    cases front with
    | nil => simp at hhome
    | cons c front => exact hhome
  have hsplit : Pieces.split ':' (h.join "bin").text.toList = front :: Pieces.split ':' behind := by
    rw [hbin, Pieces.split_append_separator, Pieces.split_whole hfront, List.singleton_append]
  rw [hgiven.candidates_home (lists_split _), hsplit, List.map_cons, places, List.map_cons, List.cons_append,
    expandHome_absolute habsolute, Path.within, if_pos habsolute]
  exact ⟨_, rfl⟩

lemma Says.finds_front (hgiven : Says w (some h) dirs) {front rest : List Char}
    (htext : h.text.toList = front ++ ':' :: rest) (hfront : ':' ∉ front)
    (hrunnable : Runnable w fs ((Path.mk (String.ofList front)).join "java")) :
    find w fs none = .ok ((Path.mk (String.ofList front)).join "java") := by
  obtain ⟨more, hcandidates⟩ := hgiven.candidates_front htext hfront
  rw [(searches_candidates w fs).found, hcandidates]
  exact isFirst_cons hrunnable more

end

/-- A configured path is taken as it is. Else the places that are promised are searched if there is no colon in
`$JAVA_HOME`. With a colon the directories of the list `$JAVA_HOME/bin` are searched in place of that directory,
which are never the same places, and first of all the one in front of the colon. -/
theorem first_java_found (w : Surroundings) (fs : FileSystem) {home : Option Path} {dirs : List Path}
    (hgiven : Says w home dirs) :
    (∀ p, find w fs (some p) = .ok p) ∧
    ((∀ h ∈ home, ':' ∉ h.text.toList) → Searches w fs (promised home dirs)) ∧
    ∀ h ∈ home,
      (∃ parts, Lists (h.join "bin").text parts ∧
        Searches w fs (places w (h.join "bin") parts ++ dirs.map fun dir => dir.join "java") ∧
        (places w (h.join "bin") parts = [(h.join "bin").join "java"] ↔ ':' ∉ h.text.toList)) ∧
      ∀ front rest, h.text.toList = front ++ ':' :: rest → ':' ∉ front →
        Runnable w fs ((Path.mk (String.ofList front)).join "java") →
        find w fs none = .ok ((Path.mk (String.ofList front)).join "java") := by
  have hsearches := searches_candidates w fs
  refine ⟨fun p => rfl, fun hcolon => ?_, fun h hhome => ?_⟩
  · rwa [hgiven.candidates_promised hcolon] at hsearches
  · rw [Option.mem_def] at hhome
    subst hhome
    have hparts := lists_split (h.join "bin").text
    rw [hgiven.candidates_home hparts] at hsearches
    exact ⟨⟨_, hparts, hsearches, places_bin (hgiven.homeAbsolute h rfl) hparts⟩,
      fun front rest htext hfront => hgiven.finds_front htext hfront⟩

/-- A computer without programs and servers, with two variables set. -/
def withVariables (home path : String) : Surroundings where
  valueOf name := if name = "JAVA_HOME" then some home else if name = "PATH" then some path else none
  workingDir := []
  accountHome := none
  program _ _ := ⟨[], [], .exited 0⟩
  serve _ _ := none

lemma says_withVariables {home : Path} {path : String} {dirs : List Path} (hhome : home.isAbsolute = true)
    (hpath : Lists path dirs) (hdirs : ∀ dir ∈ dirs, dir.isAbsolute = true) :
    Says (withVariables home.text path) (some home) dirs where
  homeAbsolute h hh := by
    rwa [← Option.mem_some.mp hh]
  home := rfl
  path := .inr ⟨path, rfl, hpath⟩
  pathAbsolute := hdirs

/-- Java in the second directory of the search path, and a directory in its place in the first one. -/
def installed : FileSystem where
  entries := [(["usr"], .directory), (["usr", "bin"], .directory), (["usr", "bin", "java"], .directory),
    (["opt"], .directory), (["opt", "bin"], .directory), (["opt", "bin", "java"], .file [] true)]

lemma lists_bins : Lists "/usr/bin:/opt/bin" [⟨"/usr/bin"⟩, ⟨"/opt/bin"⟩] :=
  ⟨by simp, by decide +kernel, by decide +kernel⟩

theorem first_java_found_installed :
    find (withVariables "/opt/jdk" "/usr/bin:/opt/bin") installed none = .ok ⟨"/opt/bin/java"⟩ := by
  have hgiven : Says (withVariables "/opt/jdk" "/usr/bin:/opt/bin") (some ⟨"/opt/jdk"⟩) [⟨"/usr/bin"⟩, ⟨"/opt/bin"⟩] :=
    says_withVariables (by decide) lists_bins (by decide)
  have hsearches := (first_java_found _ installed hgiven).2.1 (by decide)
  rw [hsearches.found, isFirst_iff]
  decide +kernel

def installedApart : FileSystem where
  entries := [(["a:b"], .directory), (["a:b", "bin"], .directory), (["a:b", "bin", "java"], .file [] true)]

/-- Java in a home directory with a colon in its name is not found. -/
theorem java_behind_colon_missed :
    ¬ ∀ (w : Surroundings) (fs : FileSystem) (home : Option Path) (dirs : List Path) (p : Path), Says w home dirs →
      IsFirst w fs (promised home dirs) p → find w fs none = .ok p := by
  intro hfind
  have hgiven : Says (withVariables "/a:b" "/usr/bin") (some ⟨"/a:b"⟩) [⟨"/usr/bin"⟩] :=
    says_withVariables (by decide) ⟨by simp, by decide, by decide⟩ (by decide)
  have hfound := hfind _ installedApart _ _ ⟨"/a:b/bin/java"⟩ hgiven (isFirst_iff.mpr (by decide +kernel))
  revert hfound
  decide +kernel

end AdocProse.Java
