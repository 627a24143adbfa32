import AdocProse.Proofs.Parser.Provision
import Mathlib.Logic.Function.Basic

/-! Any number of processes that provide the same artifact at the same time, each of them killed at any
time or not. Each writes to a temporary file of its own, so what is at the place of the path is what was
there before or the whole of one download. -/

namespace AdocProse.Artifact

open FileSystem Relation

/-- What a fetcher delivers to one process, and why it stops after that if it fails. -/
structure Feed where
  chunks : List (List UInt8)
  failure : Option IoKind

inductive Stage where
  | testing
  | preparing
  | opening
  | fetching (tmp : Location) (left : List (List UInt8))
  | discarding (tmp : Location) (cause : IoKind)
  | returned (result : Except ParseError Path)
  | killed

def Stage.temporary? : Stage → Option Location
  | .fetching tmp _ => some tmp
  | .discarding tmp _ => some tmp
  | _ => none

def fails (a : Artifact) (cause : IoKind) : Stage :=
  .returned (.error (.download a.url a.path cause))

inductive Advance (w : Surroundings) (a : Artifact) (feed : Feed) :
    FileSystem → Stage → FileSystem → Stage → Prop where
  | found {fs} (hcached : a.isCached fs w.workingDir = true) :
    Advance w a feed fs .testing fs (.returned (.ok a.path))
  | missing {fs} (hcached : a.isCached fs w.workingDir = false) :
    Advance w a feed fs .testing fs .preparing
  | prepared {fs fs'} (hmake : fs.makeDirectories w.workingDir a.parent = (.ok (), fs')) :
    Advance w a feed fs .preparing fs' .opening
  | unprepared {fs fs' cause} (hmake : fs.makeDirectories w.workingDir a.parent = (.error cause, fs')) :
    Advance w a feed fs .preparing fs' (a.fails cause)
  -- Any name in the parent that is not in use, as the one that is looked up.
  | opened {fs l tmp} (hparent : fs.freshLocation w.workingDir a.parent [fileName a.path.text] = .ok l)
    (hbeside : tmp.dropLast = l.dropLast) (hnew : fs.get? tmp = none) (hplace : tmp ≠ a.place w) :
    Advance w a feed fs .opening (fs.put tmp (.file [] false)) (.fetching tmp feed.chunks)
  | unopened {fs cause}
    (hparent : fs.freshLocation w.workingDir a.parent [fileName a.path.text] = .error cause) :
    Advance w a feed fs .opening fs (a.fails cause)
  | appended {fs tmp chunk left content executable}
    (hget : fs.get? tmp = some (.file content executable)) :
    Advance w a feed fs (.fetching tmp (chunk :: left))
      (fs.put tmp (.file (content ++ chunk) executable)) (.fetching tmp left)
  | unfetched {fs tmp cause} (hfetch : feed.failure = some cause) :
    Advance w a feed fs (.fetching tmp []) fs (.discarding tmp cause)
  | moved {fs tmp fs'} (hfetch : feed.failure = none)
    (hmove : fs.rename w.workingDir tmp a.path = .ok fs') :
    Advance w a feed fs (.fetching tmp []) fs' (.returned (.ok a.path))
  | unmoved {fs tmp cause} (hfetch : feed.failure = none)
    (hmove : fs.rename w.workingDir tmp a.path = .error cause) :
    Advance w a feed fs (.fetching tmp []) fs (.discarding tmp cause)
  | discarded {fs tmp cause} :
    Advance w a feed fs (.discarding tmp cause) (fs.erase tmp) (a.fails cause)

structure System (ι : Type*) where
  files : FileSystem
  stage : ι → Stage

section

variable {ι : Type*} [DecidableEq ι] {w : Surroundings} {a : Artifact} {feed : ι → Feed}
  {s s' : System ι} {fs fs' : FileSystem}

inductive Step (w : Surroundings) (a : Artifact) (feed : ι → Feed) : System ι → System ι → Prop where
  | advance {s : System ι} {fs stage} (i : ι)
    (h : Advance w a (feed i) s.files (s.stage i) fs stage) :
    Step w a feed s ⟨fs, Function.update s.stage i stage⟩
  | kill {s : System ι} (i : ι) (h : ∀ result, s.stage i ≠ .returned result) :
    Step w a feed s ⟨s.files, Function.update s.stage i .killed⟩

def System.start (ι : Type*) (fs : FileSystem) : System ι :=
  ⟨fs, fun _ => .testing⟩

/-- What a step of a process with a temporary file leaves as it was. -/
structure Keeps (w : Surroundings) (a : Artifact) (own : Option Location) (fs fs' : FileSystem) :
    Prop where
  directories : Grows fs fs'
  files : ∀ l content executable, fs.get? l = some (.file content executable) → l ≠ a.place w →
    own ≠ some l → fs'.get? l = some (.file content executable)
  place : ∀ content executable, fs.get? (a.place w) = some (.file content executable) →
    ∃ content' executable', fs'.get? (a.place w) = some (.file content' executable')

namespace Keeps

variable {own : Option Location} {tmp : Location}

lemma refl (own : Option Location) (fs : FileSystem) : Keeps w a own fs fs :=
  ⟨.refl fs, fun _ _ _ h _ _ => h, fun content executable h => ⟨content, executable, h⟩⟩

lemma adds {allowed : Location → Prop} (h : Adds allowed fs fs') : Keeps w a own fs fs' :=
  ⟨h.grows, fun _ _ _ hl _ _ => h.file_iff.mpr hl,
    fun content executable hl => ⟨content, executable, h.file_iff.mpr hl⟩⟩

lemma put (hplace : tmp ≠ a.place w) (hown : fs.get? tmp ≠ none → own = some tmp)
    (hdirectory : fs.get? tmp ≠ some .directory) (content : List UInt8) (executable : Bool) :
    Keeps w a own fs (fs.put tmp (.file content executable)) where
  directories l hl := by
    have hother : l ≠ tmp := by
      rintro rfl
      exact hdirectory hl
    rwa [get?_put_ne hother]
  files l content' executable' hl _ hown' := by
    have hother : l ≠ tmp := by
      rintro rfl
      exact hown' (hown (by simp [hl]))
    rwa [get?_put_ne hother]
  place content' executable' hl := by
    rw [get?_put_ne hplace.symm]
    exact ⟨content', executable', hl⟩

lemma erase (hplace : tmp ≠ a.place w) (hdirectory : fs.get? tmp ≠ some .directory) :
    Keeps w a (some tmp) fs (fs.erase tmp) where
  directories l hl := by
    have hother : l ≠ tmp := by
      rintro rfl
      exact hdirectory hl
    rwa [get?_erase_ne hother]
  files l content executable hl _ hown := by
    have hother : l ≠ tmp := by
      rintro rfl
      exact hown rfl
    rwa [get?_erase_ne hother]
  place content executable hl := by
    rw [get?_erase_ne hplace.symm]
    exact ⟨content, executable, hl⟩

lemma rename {content : List UInt8} {executable : Bool}
    (hget : fs.get? tmp = some (.file content executable))
    (hmove : fs.rename w.workingDir tmp a.path = .ok fs') :
    Keeps w a (some tmp) fs fs' ∧
      fs'.lookup w.workingDir a.path = .ok (a.place w, .file content executable) := by
  obtain ⟨e, parent, name, hsource, hresolve, hfree, rfl⟩ := rename_ok hmove
  rw [hget, Option.some.injEq] at hsource
  subst hsource
  have hspelled : parent ++ [name] = a.place w := resolve_location hresolve
  rw [hspelled] at hfree ⊢
  have hself : ((fs.erase tmp).put (a.place w) (.file content executable)).get? (a.place w) =
      some (.file content executable) := get?_put_self (by simp [← hspelled])
  have hgrows : Grows fs ((fs.erase tmp).put (a.place w) (.file content executable)) := by
    intro l hl
    have hl' : l ≠ a.place w := fun h => hfree (h ▸ hl)
    have htmp : l ≠ tmp := by
      rintro rfl
      rw [hget] at hl
      cases hl
    rw [get?_put_ne hl', get?_erase_ne htmp]
    exact hl
  refine ⟨⟨hgrows, ?_, fun _ _ _ => ⟨_, _, hself⟩⟩, ?_⟩
  · intro l content' executable' hl hl' hown
    have hother : l ≠ tmp := by
      rintro rfl
      exact hown rfl
    rwa [get?_put_ne hl', get?_erase_ne hother]
  · exact lookup_ok.mpr ⟨_, resolve_grows hgrows hresolve, hspelled, hself⟩

lemma cached (h : Keeps w a own fs fs') (hcached : a.isCached fs w.workingDir = true) :
    a.isCached fs' w.workingDir = true := by
  obtain ⟨content, executable, hlookup⟩ := isFile_iff.mp hcached
  obtain ⟨content', executable', hget⟩ := h.place content executable (lookup_place hlookup).2
  exact isFile_iff.mpr ⟨content', executable', lookup_grows h.directories hlookup hget⟩

end Keeps

/-- The temporary file of a process is not at the place of the path, and it holds what has arrived. -/
def Holds (w : Surroundings) (a : Artifact) (feed : Feed) (fs : FileSystem) : Stage → Prop
  | .fetching tmp left => tmp ≠ a.place w ∧ ∃ content, fs.get? tmp = some (.file content false) ∧
      content ++ left.flatten = feed.chunks.flatten
  | .discarding tmp _ => tmp ≠ a.place w ∧ ∃ content, fs.get? tmp = some (.file content false)
  | _ => True

namespace Holds

variable {one : Feed} {stage : Stage} {tmp : Location}

lemma temporary (h : Holds w a one fs stage) (htmp : stage.temporary? = some tmp) :
    tmp ≠ a.place w ∧ ∃ content, fs.get? tmp = some (.file content false) := by
  cases stage with
  | fetching tmp' left =>
    cases htmp
    obtain ⟨hplace, content, hget, -⟩ := h
    exact ⟨hplace, content, hget⟩
  | discarding tmp' cause =>
    cases htmp
    exact h
  | testing | preparing | opening | returned | killed => cases htmp

lemma of_keeps {own : Option Location} (h : Holds w a one fs stage) (hkeeps : Keeps w a own fs fs')
    (hown : ∀ tmp, stage.temporary? = some tmp → own ≠ some tmp) : Holds w a one fs' stage := by
  cases stage with
  | fetching tmp left =>
    obtain ⟨hplace, content, hget, hleft⟩ := h
    exact ⟨hplace, content, hkeeps.files _ _ _ hget hplace (hown _ rfl), hleft⟩
  | discarding tmp cause =>
    obtain ⟨hplace, content, hget⟩ := h
    exact ⟨hplace, content, hkeeps.files _ _ _ hget hplace (hown _ rfl)⟩
  | testing | preparing | opening | returned | killed => trivial

end Holds

lemma not_makes (hdown : ['.', '.'] ∉ a.path.pieces) : ¬Makes w.workingDir a.parent (a.place w) := by
  intro h
  have hnamed := named_of_onTheWay hdown h.onTheWay
  refine h.named ?_
  rw [parent]
  cases htop : a.path.parent? with
  | none => rfl
  | some q => rw [Option.getD_some, Path.named_parent htop, hnamed, List.dropLast_nil]

namespace Advance

variable {one : Feed} {stage stage' : Stage}

lemma keeps (h : Advance w a one fs stage fs' stage') (hholds : Holds w a one fs stage) :
    Keeps w a stage.temporary? fs fs' := by
  cases h with
  | found | missing | unopened | unfetched | unmoved => exact .refl _ fs
  | prepared hmake | unprepared hmake => exact .adds (makeDirectories_adds hmake)
  | opened hparent hbeside hnew hplace => exact .put hplace (absurd hnew) (by simp [hnew]) _ _
  | appended hget => exact .put hholds.1 (fun _ => rfl) (by simp [hget]) _ _
  | moved hfetch hmove =>
    obtain ⟨hplace, content, hget, -⟩ := hholds
    exact (Keeps.rename hget hmove).1
  | discarded =>
    obtain ⟨hplace, content, hget⟩ := hholds
    exact .erase hplace (by simp [hget])

lemma temporary (h : Advance w a one fs stage fs' stage') {tmp : Location}
    (htmp : stage'.temporary? = some tmp) : stage.temporary? = some tmp ∨ fs.get? tmp = none := by
  cases h with
  | found | missing | prepared | unprepared | unopened | moved | discarded => cases htmp
  | opened hparent hbeside hnew =>
    cases htmp
    exact .inr hnew
  | appended | unfetched | unmoved => exact .inl htmp

lemma holds (h : Advance w a one fs stage fs' stage') (hholds : Holds w a one fs stage) :
    Holds w a one fs' stage' := by
  cases h with
  | found | missing | prepared | unprepared | unopened | moved | discarded => trivial
  | opened hparent hbeside hnew hplace =>
    refine ⟨hplace, [], get?_put_self ?_, rfl⟩
    rintro rfl
    cases hnew
  | @appended tmp chunk left content executable hget =>
    obtain ⟨hplace, content', hget', hleft⟩ := hholds
    rw [hget'] at hget
    cases hget
    have hne : tmp ≠ [] := by
      rintro rfl
      cases hget'
    refine ⟨hplace, content ++ chunk, get?_put_self hne, ?_⟩
    rw [← hleft, List.flatten_cons, List.append_assoc]
  | unfetched | unmoved =>
    obtain ⟨hplace, content, hget, -⟩ := hholds
    exact ⟨hplace, content, hget⟩

lemma shown (h : Advance w a one fs stage fs' stage') (hholds : Holds w a one fs stage) {e : Entry}
    (hget : fs'.get? (a.place w) = some e) :
    fs.get? (a.place w) = some e ∨ Makes w.workingDir a.parent (a.place w) ∧ e = .directory ∨
      stage' = .returned (.ok a.path) ∧ one.failure = none ∧ e = .file one.chunks.flatten false := by
  cases h with
  | found | missing | unopened | unfetched | unmoved => exact .inl hget
  | prepared hmake | unprepared hmake =>
    rcases makeDirectories_makes hmake (a.place w) with hsame | ⟨-, hnew, hmakes⟩
    · exact .inl (hsame ▸ hget)
    · rw [hnew, Option.some.injEq] at hget
      exact .inr (.inl ⟨hmakes, hget.symm⟩)
  | opened hparent hbeside hnew hplace =>
    rw [get?_put_ne hplace.symm] at hget
    exact .inl hget
  | appended =>
    rw [get?_put_ne hholds.1.symm] at hget
    exact .inl hget
  | moved hfetch hmove =>
    obtain ⟨hplace, content, hget', hleft⟩ := hholds
    have hmoved := (lookup_place (Keeps.rename hget' hmove).2).2
    rw [← place, hget, Option.some.injEq] at hmoved
    rw [List.flatten_nil, List.append_nil] at hleft
    exact .inr (.inr ⟨rfl, hfetch, by rw [hmoved, hleft]⟩)
  | discarded =>
    rw [get?_erase_ne hholds.1.symm] at hget
    exact .inl hget

lemma ended (h : Advance w a one fs stage fs' stage') (hholds : Holds w a one fs stage)
    (hstage : stage' = .returned (.ok a.path)) : a.isCached fs' w.workingDir = true := by
  cases h with
  | found hcached => exact hcached
  | moved hfetch hmove =>
    obtain ⟨hplace, content, hget, -⟩ := hholds
    exact isFile_iff.mpr ⟨content, false, (Keeps.rename hget hmove).2⟩
  | missing | prepared | opened | appended | unfetched | unmoved => cases hstage
  | unprepared | unopened | discarded => cases hstage

end Advance

/-- What is so at every moment, with `fs` the files at the start. -/
structure Consistent (w : Surroundings) (a : Artifact) (feed : ι → Feed) (fs : FileSystem)
    (s : System ι) : Prop where
  holds : ∀ i, Holds w a (feed i) s.files (s.stage i)
  alone : ∀ i j tmp, (s.stage i).temporary? = some tmp → (s.stage j).temporary? = some tmp → i = j
  shown : ∀ e, s.files.get? (a.place w) = some e →
    fs.get? (a.place w) = some e ∨ Makes w.workingDir a.parent (a.place w) ∧ e = .directory ∨
      ∃ i, s.stage i = .returned (.ok a.path) ∧ (feed i).failure = none ∧
        e = .file (feed i).chunks.flatten false
  ended : ∀ i, s.stage i = .returned (.ok a.path) → a.isCached s.files w.workingDir = true

namespace Consistent

omit [DecidableEq ι] in
lemma start (fs : FileSystem) : Consistent w a feed fs (.start ι fs) where
  holds _ := trivial
  alone _ _ _ h := by cases h
  shown _ h := .inl h
  ended _ h := by cases h

omit [DecidableEq ι] in
lemma unshared (h : Consistent w a feed fs s) {i j : ι} {tmp : Location} (hj : j ≠ i)
    (htemporary : (s.stage i).temporary? = some tmp ∨ s.files.get? tmp = none) :
    (s.stage j).temporary? ≠ some tmp := by
  intro htmp
  rcases htemporary with hold | hnone
  · exact hj (h.alone j i tmp htmp hold)
  · obtain ⟨-, content, hget⟩ := (h.holds j).temporary htmp
    rw [hnone] at hget
    cases hget

lemma alone_update (h : Consistent w a feed fs s) {i : ι} {stage : Stage}
    (htemporary : ∀ tmp, stage.temporary? = some tmp →
      (s.stage i).temporary? = some tmp ∨ s.files.get? tmp = none) {j k : ι} {tmp : Location}
    (hj : (Function.update s.stage i stage j).temporary? = some tmp)
    (hk : (Function.update s.stage i stage k).temporary? = some tmp) : j = k := by
  by_cases hji : j = i
  · by_cases hki : k = i
    · rw [hji, hki]
    · simp only [hji, Function.update_self] at hj
      simp only [Function.update_of_ne hki] at hk
      exact absurd hk (h.unshared hki (htemporary tmp hj))
  · simp only [Function.update_of_ne hji] at hj
    by_cases hki : k = i
    · simp only [hki, Function.update_self] at hk
      exact absurd hj (h.unshared hji (htemporary tmp hk))
    · simp only [Function.update_of_ne hki] at hk
      exact h.alone j k tmp hj hk

lemma update (h : Consistent w a feed fs s) {i : ι} {stage : Stage}
    (hrunning : ∀ result, s.stage i ≠ .returned result)
    (hkeeps : Keeps w a (s.stage i).temporary? s.files fs')
    (htemporary : ∀ tmp, stage.temporary? = some tmp →
      (s.stage i).temporary? = some tmp ∨ s.files.get? tmp = none)
    (hholds : Holds w a (feed i) fs' stage)
    (hshown : ∀ e, fs'.get? (a.place w) = some e → s.files.get? (a.place w) = some e ∨
      Makes w.workingDir a.parent (a.place w) ∧ e = .directory ∨
        stage = .returned (.ok a.path) ∧ (feed i).failure = none ∧
          e = .file (feed i).chunks.flatten false)
    (hended : stage = .returned (.ok a.path) → a.isCached fs' w.workingDir = true) :
    Consistent w a feed fs ⟨fs', Function.update s.stage i stage⟩ := by
  constructor
  case holds =>
    intro j
    by_cases hj : j = i
    · subst hj
      simpa using hholds
    · simp only [Function.update_of_ne hj]
      exact (h.holds j).of_keeps hkeeps fun tmp htmp hown => hj (h.alone j i tmp htmp hown)
  case alone =>
    intro j k tmp hj hk
    exact h.alone_update htemporary hj hk
  case shown =>
    intro e hget
    rcases hshown e hget with hget | hmakes | ⟨hstage, hfetch, he⟩
    · rcases h.shown e hget with hstart | hmakes | ⟨j, hj, hfetch, he⟩
      · exact .inl hstart
      · exact .inr (.inl hmakes)
      · have hji : j ≠ i := by
          rintro rfl
          exact hrunning _ hj
        exact .inr (.inr ⟨j, by simpa only [Function.update_of_ne hji] using hj, hfetch, he⟩)
    · exact .inr (.inl hmakes)
    · exact .inr (.inr ⟨i, by simpa using hstage, hfetch, he⟩)
  case ended =>
    intro j hj
    by_cases hji : j = i
    · simp only [hji, Function.update_self] at hj
      exact hended hj
    · simp only [Function.update_of_ne hji] at hj
      exact hkeeps.cached (h.ended j hj)

lemma step (h : Consistent w a feed fs s) (hstep : Step w a feed s s') :
    Consistent w a feed fs s' := by
  cases hstep with
  | advance i hadvance =>
    have hrunning : ∀ result, s.stage i ≠ .returned result := by
      intro result hstage
      rw [hstage] at hadvance
      cases hadvance
    exact h.update hrunning (hadvance.keeps (h.holds i)) (fun _ => hadvance.temporary)
      (hadvance.holds (h.holds i)) (fun _ => hadvance.shown (h.holds i)) (hadvance.ended (h.holds i))
  | kill i hrunning =>
    exact h.update hrunning (.refl _ _) (fun _ htmp => by cases htmp) trivial (fun _ => .inl)
      (fun hstage => by cases hstage)

lemma reachable (h : ReflTransGen (Step w a feed) (.start ι fs) s) : Consistent w a feed fs s := by
  induction h with
  | refl => exact .start fs
  | tail _ hstep ih => exact ih.step hstep

lemma cached_stays (h : Consistent w a feed fs s) (hcached : a.isCached s.files w.workingDir = true)
    (hrun : ReflTransGen (Step w a feed) s s') : a.isCached s'.files w.workingDir = true := by
  suffices Consistent w a feed fs s' ∧ a.isCached s'.files w.workingDir = true from this.2
  induction hrun with
  | refl => exact ⟨h, hcached⟩
  | tail _ hstep ih =>
    obtain ⟨hbefore, hcached⟩ := ih
    refine ⟨hbefore.step hstep, ?_⟩
    cases hstep with
    | advance i hadvance => exact (hadvance.keeps (hbefore.holds i)).cached hcached
    | kill i hrunning => exact hcached

end Consistent

/-- One process that nobody disturbs. -/
def Runs (w : Surroundings) (a : Artifact) (feed : Feed) :
    FileSystem × Stage → FileSystem × Stage → Prop :=
  ReflTransGen fun before after => Advance w a feed before.1 before.2 after.1 after.2

lemma Runs.step {one : Feed} {stage stage' : Stage} {last : FileSystem × Stage}
    (h : Advance w a one fs stage fs' stage') (hrest : Runs w a one (fs', stage') last) :
    Runs w a one (fs, stage) last :=
  ReflTransGen.head (show (fun before after : FileSystem × Stage =>
    Advance w a one before.1 before.2 after.1 after.2) (fs, stage) (fs', stage') from h) hrest

lemma Runs.within {i : ι} {last : FileSystem × Stage}
    (h : Runs w a (feed i) (s.files, s.stage i) last) :
    ReflTransGen (Step w a feed) s ⟨last.1, Function.update s.stage i last.2⟩ := by
  induction h with
  | refl => rw [Function.update_eq_self]
  | @tail middle last _ hstep ih =>
    have hnext : Advance w a (feed i) middle.1 (Function.update s.stage i middle.2 i) last.1 last.2 := by
      rwa [Function.update_self]
    have htail := ih.tail (.advance i hnext)
    simpa only [Function.update_idem] using htail

lemma runs_chunks {one : Feed} (fs : FileSystem) {tmp : Location} (hne : tmp ≠ [])
    (content : List UInt8) (left : List (List UInt8)) {last : FileSystem × Stage}
    (hrest : Runs w a one (fs.put tmp (.file (content ++ left.flatten) false), .fetching tmp []) last) :
    Runs w a one (fs.put tmp (.file content false), .fetching tmp left) last := by
  induction left generalizing content with
  | nil => rwa [List.flatten_nil, List.append_nil] at hrest
  | cons chunk left ih =>
    refine .step (.appended (get?_put_self hne)) ?_
    rw [put_put]
    refine ih (content ++ chunk) ?_
    rwa [List.flatten_cons, ← List.append_assoc] at hrest

lemma runs_download {one : Feed} {tmp : Location} {last : FileSystem × Stage}
    (hmake : fs.makeDirectories w.workingDir a.parent = (.ok (), fs'))
    (htmp : fs'.freshLocation w.workingDir a.parent [fileName a.path.text] = .ok tmp)
    (hplace : tmp ≠ a.place w)
    (hrest : Runs w a one (fs'.put tmp (.file one.chunks.flatten false), .fetching tmp []) last) :
    Runs w a one (fs, .preparing) last := by
  obtain ⟨hnew, name, hname, -⟩ := freshLocation_ok htmp
  refine .step (.prepared hmake) (.step (.opened htmp rfl hnew hplace) ?_)
  exact runs_chunks fs' (by simp [hname]) [] one.chunks hrest

/-- The steps of a process that nobody disturbs are those of a call. -/
theorem runs_call (w : Surroundings) (a : Artifact) (fetch : Fetcher) (s : Session) (one : Feed)
    (hbytes : one.chunks.flatten = (fetch a.url).bytes) (hfailure : one.failure = (fetch a.url).failure)
    (hfresh : ∀ (fs : FileSystem) tmp, fs.freshLocation w.workingDir a.parent [fileName a.path.text] = .ok tmp →
      tmp ≠ a.place w) :
    Runs w a one (s.files, .testing)
      ((a.call w fetch s).after.files, .returned (a.call w fetch s).result) := by
  cases hcached : a.isCached s.files w.workingDir with
  | true =>
    rw [call_cached hcached]
    exact .step (.found hcached) .refl
  | false =>
    refine .step (.missing hcached) ?_
    have hends := downloads w a fetch ⟨s.files, s.journal ++ [a.beginning]⟩
    generalize hdownload : a.download w fetch ⟨s.files, s.journal ++ [a.beginning]⟩ = result at hends
    cases hends with
    | directories hmake =>
      rw [call_failed hcached hdownload]
      exact .step (.unprepared hmake) .refl
    | temporary hmake htmp =>
      rw [call_failed hcached hdownload]
      exact .step (.prepared hmake) (.step (.unopened htmp) .refl)
    | @fetching fs tmp cause hmake htmp hfetch =>
      rw [call_failed hcached hdownload]
      refine runs_download hmake htmp (hfresh _ _ htmp) ?_
      refine .step (.unfetched (hfailure.trans hfetch)) (.step .discarded ?_)
      rw [erase_put]
      exact .refl
    | moving hmake htmp hfetch hmove =>
      rw [call_failed hcached hdownload]
      refine runs_download hmake htmp (hfresh _ _ htmp) ?_
      rw [hbytes]
      exact .step (.unmoved (hfailure.trans hfetch) hmove) (.step .discarded .refl)
    | moved hmake htmp hfetch hmove =>
      rw [call_downloaded hcached hdownload]
      refine runs_download hmake htmp (hfresh _ _ htmp) ?_
      rw [hbytes]
      exact .step (.moved (hfailure.trans hfetch) hmove) .refl

lemma fresh_ne_place {last : List Char} (hlast : a.path.pieces.getLast? = some last)
    (hdots : isDots last = false) {tmp : Location}
    (h : fs.freshLocation w.workingDir a.parent [fileName a.path.text] = .ok tmp) :
    tmp ≠ a.place w := by
  obtain ⟨-, name, rfl, hname⟩ := freshLocation_ok h
  obtain ⟨pieces, hpieces⟩ := List.getLast?_eq_some_iff.mp hlast
  have hfile : fileName a.path.text = String.ofList last := by
    rw [fileName, ← Path.pieces, hlast, Option.getD_some]
  rw [hfile, List.mem_singleton] at hname
  intro hsame
  rw [place, spelled_eq w.workingDir a.path, hpieces, List.foldl_append, List.foldl_cons, List.foldl_nil,
    toward_dots hdots] at hsame
  exact hname (List.append_singleton_inj.mp hsame).2

theorem interleaved_whole (w : Surroundings) (a : Artifact) (feed : ι → Feed) (fs : FileSystem)
    (s : System ι) (hrun : ReflTransGen (Step w a feed) (.start ι fs) s) :
    (∀ content, s.files.read w.workingDir a.path = .ok content →
      (∃ executable, fs.get? (a.place w) = some (.file content executable)) ∨
        ∃ i, s.stage i = .returned (.ok a.path) ∧ (feed i).failure = none ∧
          content = (feed i).chunks.flatten) ∧
    (fs.Closed → ['.', '.'] ∉ a.path.pieces →
      ∀ found, s.files.lookup w.workingDir a.path = .ok found →
        fs.lookup w.workingDir a.path = .ok found ∨
          ∃ i, s.stage i = .returned (.ok a.path) ∧ (feed i).failure = none ∧
            found = (a.place w, .file (feed i).chunks.flatten false)) ∧
    ∀ i, s.stage i = .returned (.ok a.path) → ∀ s', ReflTransGen (Step w a feed) s s' →
      a.isCached s'.files w.workingDir = true := by
  have h := Consistent.reachable hrun
  refine ⟨?_, ?_, fun i hi s' hrest => h.cached_stays (h.ended i hi) hrest⟩
  · intro content hread
    obtain ⟨executable, hlookup⟩ := read_ok.mp hread
    rcases h.shown _ (lookup_place hlookup).2 with hstart | ⟨-, he⟩ | ⟨i, hi, hfetch, he⟩
    · exact .inl ⟨executable, hstart⟩
    · cases he
    · cases he
      exact .inr ⟨i, hi, hfetch, rfl⟩
  · rintro hclosed hdown ⟨l, e⟩ hlookup
    obtain ⟨rfl, hget⟩ := lookup_place hlookup
    rcases h.shown _ hget with hstart | ⟨hmakes, -⟩ | ⟨i, hi, hfetch, rfl⟩
    · exact .inl (hclosed.lookup hdown hlookup hstart)
    · exact absurd hmakes (not_makes hdown)
    · exact .inr ⟨i, hi, hfetch, rfl⟩

end

def twoFeeds : Bool → Feed
  | true => ⟨[[106], [97, 114]], none⟩
  | false => ⟨[[112]], none⟩

def inCache : Surroundings :=
  { nowhere with workingDir := ["c"] }

def jar : Artifact := ofUrl "https://h/t.jar" ⟨"d"⟩

theorem interleaved_whole_twoFeeds : ∃ s : System Bool,
    ReflTransGen (Step inCache jar twoFeeds) (.start Bool emptyCache) s ∧
    emptyCache.Closed ∧ jar.path.isAbsolute = false ∧ ['.', '.'] ∉ jar.path.pieces ∧
    s.stage true = .returned (.ok jar.path) ∧ s.stage false = .killed ∧
    (∀ found, s.files.lookup ["c"] jar.path = .ok found → emptyCache.lookup ["c"] jar.path = .ok found ∨
      ∃ i, s.stage i = .returned (.ok jar.path) ∧ (twoFeeds i).failure = none ∧
        found = (["c", "d", "t.jar"], .file (twoFeeds i).chunks.flatten false)) ∧
    ∀ s', ReflTransGen (Step inCache jar twoFeeds) s s' → jar.isCached s'.files ["c"] = true := by
  have hmissing : jar.isCached emptyCache ["c"] = false := by decide +kernel
  have hlast : jar.path.pieces.getLast? = some ['t', '.', 'j', 'a', 'r'] := by decide +kernel
  let fetch : Fetcher := fun _ => ⟨[106, 97, 114], none, []⟩
  have hresult : (jar.call inCache fetch (.start emptyCache)).result = .ok jar.path := by decide +kernel
  have hcall := runs_call inCache jar fetch (.start emptyCache) (twoFeeds true) rfl rfl
    fun _ _ => fresh_ne_place hlast (by decide)
  rw [hresult] at hcall
  generalize (jar.call inCache fetch (.start emptyCache)).after.files = fs at hcall
  have hrun : ReflTransGen (Step inCache jar twoFeeds) (.start Bool emptyCache) ⟨fs, Function.update
      (Function.update (Function.update (fun _ => .testing) false .preparing) true
        (.returned (.ok jar.path))) false .killed⟩ :=
    .trans (.single (.advance false (.missing hmissing)))
      (.tail (Runs.within (i := true) hcall) (.kill false (by simp)))
  have hclosed : emptyCache.Closed := closed_of_entries (by decide +kernel)
  have hdown : ['.', '.'] ∉ jar.path.pieces := by decide +kernel
  have hplace : jar.place inCache = ["c", "d", "t.jar"] := by decide +kernel
  have hwhole := interleaved_whole inCache jar twoFeeds emptyCache _ hrun
  exact ⟨_, hrun, hclosed, by decide +kernel, hdown, rfl, rfl, hplace ▸ hwhole.2.1 hclosed hdown, hwhole.2.2 true rfl⟩

theorem directories_uncover :
    ¬ ∀ (w : Surroundings) (a : Artifact) (feed : Unit → Feed) (fs : FileSystem) (s : System Unit),
      fs.Closed → a.path.isAbsolute = true →
      (∀ l, fs.lookup w.workingDir a.path ≠ .ok (l, .directory)) →
      ReflTransGen (Step w a feed) (.start Unit fs) s →
      ∀ content, s.files.read w.workingDir a.path = .ok content →
        fs.read w.workingDir a.path = .ok content ∨
          ∃ i, (feed i).failure = none ∧ content = (feed i).chunks.flatten := by
  intro h
  let a : Artifact := ofUrl "https://h/t.jar" ⟨"/x/../c"⟩
  have hclosed : staleCache.Closed := closed_of_entries (by decide +kernel)
  have habsent : staleCache.lookup [] a.path = .error .notFound := by decide +kernel
  have hmissing : a.isCached staleCache [] = false := by decide +kernel
  have hmade : (staleCache.makeDirectories [] a.parent).1 = .ok () := by decide +kernel
  have hmake : staleCache.makeDirectories [] a.parent =
      (.ok (), (staleCache.makeDirectories [] a.parent).2) := by rw [← hmade]
  let feed : Unit → Feed := fun _ => ⟨[], some .connectionReset⟩
  have hrun : ReflTransGen (Step nowhere a feed) (.start Unit staleCache) _ :=
    Runs.within (i := ()) (.step (.missing hmissing) (.step (.prepared hmake) .refl))
  have hshown := h nowhere a feed staleCache _ hclosed (by decide +kernel) (by simp [nowhere, habsent]) hrun
    [111] (by decide +kernel)
  rcases hshown with hstart | ⟨_, hfetch, -⟩
  · revert hstart
    decide +kernel
  · cases hfetch

end AdocProse.Artifact
