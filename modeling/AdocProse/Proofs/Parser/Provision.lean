import AdocProse.Parser.Artifact
import AdocProse.Proofs.System.Changes

/-! A run of downloads is all or nothing: a call that fails leaves every file as it was, one that
downloads puts the fetched bytes at the place of the path and nothing else, and from then on every call
finds them there. -/

namespace AdocProse.Artifact

open FileSystem

def parent (a : Artifact) : Path :=
  a.path.parent?.getD ⟨"."⟩

def place (w : Surroundings) (a : Artifact) : Location :=
  spelled w.workingDir a.path

section

variable {w : Surroundings} {a : Artifact} {fetch : Fetcher} {s s' : Session} {fs fs' : FileSystem}

/-- The steps that a download can fail at, with the reason and with what is in the journal for it: making
the directories, making the temporary file, fetching, and moving the file to its place. -/
inductive Fails (w : Surroundings) (a : Artifact) (fetch : Fetcher) (fs : FileSystem) :
    List Event → IoKind → Prop where
  | directories {cause fs'} (hmake : fs.makeDirectories w.workingDir a.parent = (.error cause, fs')) :
    Fails w a fetch fs [] cause
  | temporary {cause fs'} (hmake : fs.makeDirectories w.workingDir a.parent = (.ok (), fs'))
    (htmp : fs'.freshLocation w.workingDir a.parent [fileName a.path.text] = .error cause) :
    Fails w a fetch fs [] cause
  | fetching {cause fs' tmp} (hmake : fs.makeDirectories w.workingDir a.parent = (.ok (), fs'))
    (htmp : fs'.freshLocation w.workingDir a.parent [fileName a.path.text] = .ok tmp)
    (hfetch : (fetch a.url).failure = some cause) :
    Fails w a fetch fs (fetch a.url).events cause
  | moving {cause fs' tmp} (hmake : fs.makeDirectories w.workingDir a.parent = (.ok (), fs'))
    (htmp : fs'.freshLocation w.workingDir a.parent [fileName a.path.text] = .ok tmp)
    (hfetch : (fetch a.url).failure = none)
    (hmove : (fs'.put tmp (.file (fetch a.url).bytes false)).rename w.workingDir tmp a.path =
      .error cause) :
    Fails w a fetch fs (fetch a.url).events cause

lemma throw_eq {α : Type} (cause : IoKind) (s : Session) : (throw cause : Action IoKind α) s = .error cause s :=
  rfl

lemma persist_cases (w : Surroundings) (a : Artifact) (tmp : Location) (s : Session) :
    (∃ cause, s.files.rename w.workingDir tmp a.path = .error cause ∧
      a.persist w tmp s = .error cause { s with files := s.files.erase tmp }) ∨
    (∃ fs, s.files.rename w.workingDir tmp a.path = .ok fs ∧
      a.persist w tmp s = .ok () { s with files := fs }) := by
  cases hmove : s.files.rename w.workingDir tmp a.path with
  | error cause =>
    refine .inl ⟨cause, rfl, ?_⟩
    simp [persist, bind, EStateM.bind, Action.files, Action.setFiles, hmove, throw_eq]
  | ok fs =>
    refine .inr ⟨fs, rfl, ?_⟩
    simp [persist, bind, EStateM.bind, Action.files, Action.setFiles, hmove]

lemma download_directories {cause : IoKind}
    (hmake : s.files.makeDirectories w.workingDir a.parent = (.error cause, fs)) :
    a.download w fetch s = .error cause { s with files := fs } := by
  rw [parent] at hmake
  simp only [download, bind, EStateM.bind, makeParent, hmake]

lemma download_temporary {cause : IoKind}
    (hmake : s.files.makeDirectories w.workingDir a.parent = (.ok (), fs))
    (htmp : fs.freshLocation w.workingDir a.parent [fileName a.path.text] = .error cause) :
    a.download w fetch s = .error cause { s with files := fs } := by
  rw [parent] at hmake htmp
  simp only [download, bind, EStateM.bind, makeParent, hmake, Action.files, Action.ofExcept, htmp]

lemma download_fetching {tmp : Location} {cause : IoKind}
    (hmake : s.files.makeDirectories w.workingDir a.parent = (.ok (), fs))
    (htmp : fs.freshLocation w.workingDir a.parent [fileName a.path.text] = .ok tmp)
    (hfetch : (fetch a.url).failure = some cause) : a.download w fetch s =
      .error cause ⟨fs.erase tmp, s.journal ++ (fetch a.url).events⟩ := by
  rw [parent] at hmake htmp
  simp only [download, bind, EStateM.bind, makeParent, hmake, Action.files, Action.ofExcept, htmp,
    Action.record, Action.setFiles, hfetch, throw_eq]

lemma download_fetched {tmp : Location}
    (hmake : s.files.makeDirectories w.workingDir a.parent = (.ok (), fs))
    (htmp : fs.freshLocation w.workingDir a.parent [fileName a.path.text] = .ok tmp)
    (hfetch : (fetch a.url).failure = none) : a.download w fetch s = a.persist w tmp
      ⟨fs.put tmp (.file (fetch a.url).bytes false), s.journal ++ (fetch a.url).events⟩ := by
  rw [parent] at hmake htmp
  simp only [download, bind, EStateM.bind, makeParent, hmake, Action.files, Action.ofExcept, htmp,
    Action.record, Action.setFiles, hfetch]

/-- How a download ends, one case for each step that can be the last one. -/
inductive Downloads (w : Surroundings) (a : Artifact) (fetch : Fetcher) (s : Session) :
    EStateM.Result IoKind Session Unit → Prop where
  | directories {fs cause} (hmake : s.files.makeDirectories w.workingDir a.parent = (.error cause, fs)) :
    Downloads w a fetch s (.error cause { s with files := fs })
  | temporary {fs cause} (hmake : s.files.makeDirectories w.workingDir a.parent = (.ok (), fs))
    (htmp : fs.freshLocation w.workingDir a.parent [fileName a.path.text] = .error cause) :
    Downloads w a fetch s (.error cause { s with files := fs })
  | fetching {fs tmp cause} (hmake : s.files.makeDirectories w.workingDir a.parent = (.ok (), fs))
    (htmp : fs.freshLocation w.workingDir a.parent [fileName a.path.text] = .ok tmp)
    (hfetch : (fetch a.url).failure = some cause) :
    Downloads w a fetch s (.error cause ⟨fs.erase tmp, s.journal ++ (fetch a.url).events⟩)
  | moving {fs tmp cause} (hmake : s.files.makeDirectories w.workingDir a.parent = (.ok (), fs))
    (htmp : fs.freshLocation w.workingDir a.parent [fileName a.path.text] = .ok tmp)
    (hfetch : (fetch a.url).failure = none)
    (hmove : (fs.put tmp (.file (fetch a.url).bytes false)).rename w.workingDir tmp a.path = .error cause) :
    Downloads w a fetch s (.error cause
      ⟨(fs.put tmp (.file (fetch a.url).bytes false)).erase tmp, s.journal ++ (fetch a.url).events⟩)
  | moved {fs tmp fs'} (hmake : s.files.makeDirectories w.workingDir a.parent = (.ok (), fs))
    (htmp : fs.freshLocation w.workingDir a.parent [fileName a.path.text] = .ok tmp)
    (hfetch : (fetch a.url).failure = none)
    (hmove : (fs.put tmp (.file (fetch a.url).bytes false)).rename w.workingDir tmp a.path = .ok fs') :
    Downloads w a fetch s (.ok () ⟨fs', s.journal ++ (fetch a.url).events⟩)

lemma downloads (w : Surroundings) (a : Artifact) (fetch : Fetcher) (s : Session) :
    Downloads w a fetch s (a.download w fetch s) := by
  cases hmake : s.files.makeDirectories w.workingDir a.parent with
  | mk made fs =>
    cases made with
    | error cause =>
      rw [download_directories hmake]
      exact .directories hmake
    | ok _ =>
      cases htmp : fs.freshLocation w.workingDir a.parent [fileName a.path.text] with
      | error cause =>
        rw [download_temporary hmake htmp]
        exact .temporary hmake htmp
      | ok tmp =>
        cases hfetch : (fetch a.url).failure with
        | some cause =>
          rw [download_fetching hmake htmp hfetch]
          exact .fetching hmake htmp hfetch
        | none =>
          rw [download_fetched hmake htmp hfetch]
          rcases persist_cases w a tmp _ with ⟨cause, hmove, hend⟩ | ⟨fs', hmove, hend⟩ <;> rw [hend]
          · exact .moving hmake htmp hfetch hmove
          · exact .moved hmake htmp hfetch hmove

def beginning (a : Artifact) : Event :=
  .info ("downloading " ++ a.url ++ " to " ++ a.path.text)

def ending (a : Artifact) : Event :=
  .info ("downloaded " ++ a.url ++ " to " ++ a.path.text)

/-- A download that fails has new directories on the way to the parent at most, and each file as it was. -/
structure Failed (w : Surroundings) (a : Artifact) (fetch : Fetcher) (s : Session) (cause : IoKind)
    (s' : Session) : Prop where
  step : ∃ events, Fails w a fetch s.files events cause ∧ s'.journal = s.journal ++ events
  files : Adds (OnTheWay w.workingDir a.parent) s.files s'.files

/-- A download that does not fail has the fetched bytes at the place of the path besides. -/
structure Succeeded (w : Surroundings) (a : Artifact) (fetch : Fetcher) (s s' : Session) : Prop where
  fetched : (fetch a.url).failure = none
  journal : s'.journal = s.journal ++ (fetch a.url).events
  found : s'.files.lookup w.workingDir a.path = .ok (a.place w, .file (fetch a.url).bytes false)
  files : ∀ l, l ≠ a.place w → s'.files.get? l = s.files.get? l ∨
    s.files.get? l = none ∧ s'.files.get? l = some .directory ∧ OnTheWay w.workingDir a.parent l

lemma download_cases (w : Surroundings) (a : Artifact) (fetch : Fetcher) (s : Session) :
    (∃ cause s', a.download w fetch s = .error cause s' ∧ Failed w a fetch s cause s') ∨
    (∃ s', a.download w fetch s = .ok () s' ∧ Succeeded w a fetch s s') := by
  have hends := downloads w a fetch s
  generalize a.download w fetch s = result at hends
  cases hends with
  | directories hmake =>
    exact .inl ⟨_, _, rfl, ⟨[], .directories hmake, (List.append_nil _).symm⟩, makeDirectories_adds hmake⟩
  | temporary hmake htmp =>
    exact .inl ⟨_, _, rfl, ⟨[], .temporary hmake htmp, (List.append_nil _).symm⟩, makeDirectories_adds hmake⟩
  | fetching hmake htmp hfetch =>
    obtain ⟨hnew, name, rfl, -⟩ := freshLocation_ok htmp
    refine .inl ⟨_, _, rfl, ⟨_, .fetching hmake htmp hfetch, rfl⟩, ?_⟩
    rw [erase_new (by simp) hnew]
    exact makeDirectories_adds hmake
  | moving hmake htmp hfetch hmove =>
    obtain ⟨hnew, name, rfl, -⟩ := freshLocation_ok htmp
    refine .inl ⟨_, _, rfl, ⟨_, .moving hmake htmp hfetch hmove, rfl⟩, ?_⟩
    rw [erase_put, erase_new (by simp) hnew]
    exact makeDirectories_adds hmake
  | moved hmake htmp hfetch hmove =>
    obtain ⟨hnew, name, rfl, -⟩ := freshLocation_ok htmp
    obtain ⟨hfound, hsame⟩ := rename_new (by simp) hnew hmove
    refine .inr ⟨_, rfl, hfetch, rfl, hfound, ?_⟩
    intro l hl
    rw [hsame l hl]
    exact makeDirectories_adds hmake l

structure Call where
  fetch : Fetcher
  before : Session
  result : Except ParseError Path
  after : Session

def call (w : Surroundings) (a : Artifact) (fetch : Fetcher) (s : Session) : Call :=
  match a.ensure w fetch s with
  | .ok p s' => ⟨fetch, s, .ok p, s'⟩
  | .error e s' => ⟨fetch, s, .error e, s'⟩

def calls (w : Surroundings) (a : Artifact) : List Fetcher → Session → List Call
  | [], _ => []
  | fetch :: fetchers, s => a.call w fetch s :: a.calls w fetchers (a.call w fetch s).after

/-- The ways in which a call can end. -/
inductive AllOrNothing (w : Surroundings) (a : Artifact) (c : Call) : Prop where
  | cached (hcached : a.isCached c.before.files w.workingDir = true) (hresult : c.result = .ok a.path)
    (hafter : c.after = c.before)
  | failed {cause events} (hcached : a.isCached c.before.files w.workingDir = false)
    (hresult : c.result = .error (.download a.url a.path cause))
    (hstep : Fails w a c.fetch c.before.files events cause)
    (hjournal : c.after.journal = c.before.journal ++ a.beginning :: events)
    (hfiles : Adds (OnTheWay w.workingDir a.parent) c.before.files c.after.files)
  | downloaded (hcached : a.isCached c.before.files w.workingDir = false) (hresult : c.result = .ok a.path)
    (hfetched : (c.fetch a.url).failure = none)
    (hjournal : c.after.journal =
      c.before.journal ++ a.beginning :: (c.fetch a.url).events ++ [a.ending])
    (hfound : c.after.files.read w.workingDir a.path = .ok (c.fetch a.url).bytes)
    (hfiles : ∀ l, l ≠ a.place w → c.after.files.get? l = c.before.files.get? l ∨
      c.before.files.get? l = none ∧ c.after.files.get? l = some .directory ∧
        OnTheWay w.workingDir a.parent l)

lemma call_cached (hcached : a.isCached s.files w.workingDir = true) :
    a.call w fetch s = ⟨fetch, s, .ok a.path, s⟩ := by
  have hensure : a.ensure w fetch s = .ok a.path s := by
    simp [ensure, bind, EStateM.bind, Action.files, hcached, pure, EStateM.pure]
  rw [call, hensure]

lemma call_failed {cause : IoKind} (hcached : a.isCached s.files w.workingDir = false)
    (h : a.download w fetch ⟨s.files, s.journal ++ [a.beginning]⟩ = .error cause s') :
    a.call w fetch s = ⟨fetch, s, .error (.download a.url a.path cause), s'⟩ := by
  have hensure : a.ensure w fetch s = .error (.download a.url a.path cause) s' := by
    rw [beginning] at h
    simp [ensure, bind, EStateM.bind, Action.files, hcached, Action.inform, Action.record,
      Action.mapError, h]
  rw [call, hensure]

lemma call_downloaded (hcached : a.isCached s.files w.workingDir = false)
    (h : a.download w fetch ⟨s.files, s.journal ++ [a.beginning]⟩ = .ok () s') :
    a.call w fetch s = ⟨fetch, s, .ok a.path, ⟨s'.files, s'.journal ++ [a.ending]⟩⟩ := by
  have hensure : a.ensure w fetch s = .ok a.path ⟨s'.files, s'.journal ++ [a.ending]⟩ := by
    rw [beginning] at h
    simp [ensure, bind, EStateM.bind, Action.files, hcached, Action.inform, Action.record,
      Action.mapError, h, pure, EStateM.pure, ending]
  rw [call, hensure]

lemma call_cases (w : Surroundings) (a : Artifact) (fetch : Fetcher) (s : Session) :
    AllOrNothing w a (a.call w fetch s) := by
  cases hcached : a.isCached s.files w.workingDir with
  | true =>
    rw [call_cached hcached]
    exact .cached hcached rfl rfl
  | false =>
    rcases download_cases w a fetch ⟨s.files, s.journal ++ [a.beginning]⟩ with
      ⟨cause, s', hdownload, ⟨events, hstep, hjournal⟩, hfiles⟩ |
      ⟨s', hdownload, hfetched, hjournal, hfound, hfiles⟩
    · rw [call_failed hcached hdownload]
      refine .failed hcached rfl hstep ?_ hfiles
      rw [hjournal, List.append_assoc, List.singleton_append]
    · rw [call_downloaded hcached hdownload]
      refine .downloaded hcached rfl hfetched ?_ (read_ok.mpr ⟨false, hfound⟩) hfiles
      simp [hjournal]

@[simp] lemma call_before : (a.call w fetch s).before = s := by
  rw [call]
  split <;> rfl

lemma cached_of_ok (h : (a.call w fetch s).result = .ok a.path) :
    a.isCached (a.call w fetch s).after.files w.workingDir = true := by
  cases call_cases w a fetch s with
  | cached hcached hresult hafter => rwa [hafter]
  | failed hcached hresult =>
    rw [hresult] at h
    cases h
  | downloaded hcached hresult hfetched hjournal hfound =>
    exact isFile_iff_read.mpr ⟨_, hfound⟩

lemma calls_cached (hcached : a.isCached s.files w.workingDir = true) {fetchers : List Fetcher}
    {c : Call} (hc : c ∈ a.calls w fetchers s) : c.before = s ∧ c.after = s ∧ c.result = .ok a.path := by
  induction fetchers with
  | nil => cases hc
  | cons fetch fetchers ih =>
    rw [calls, call_cached hcached, List.mem_cons] at hc
    rcases hc with rfl | hc
    · exact ⟨rfl, rfl, rfl⟩
    · exact ih hc

lemma calls_pairwise (w : Surroundings) (a : Artifact) (fetchers : List Fetcher) (s : Session) :
    (a.calls w fetchers s).Pairwise fun c c' =>
      c.result = .ok a.path → c'.before = c.after ∧ c'.after = c.after ∧ c'.result = .ok a.path := by
  induction fetchers generalizing s with
  | nil => exact .nil
  | cons fetch fetchers ih =>
    rw [calls]
    refine List.pairwise_cons.mpr ⟨?_, ih _⟩
    intro c hc hresult
    exact calls_cached (cached_of_ok hresult) hc

lemma calls_all {motive : Call → Prop} (h : ∀ fetch s, motive (a.call w fetch s))
    {fetchers : List Fetcher} : ∀ c ∈ a.calls w fetchers s, motive c := by
  induction fetchers generalizing s with
  | nil => simp [calls]
  | cons fetch fetchers ih =>
    rw [calls, List.forall_mem_cons]
    exact ⟨h fetch s, ih⟩

lemma calls_failed {fetchers : List Fetcher} {c : Call} (hc : c ∈ a.calls w fetchers s)
    (hresult : c.result ≠ .ok a.path) :
    Adds (OnTheWay w.workingDir a.parent) s.files c.before.files ∧
      Adds (OnTheWay w.workingDir a.parent) c.before.files c.after.files := by
  induction fetchers generalizing s with
  | nil => cases hc
  | cons fetch fetchers ih =>
    rw [calls, List.mem_cons] at hc
    by_cases hok : (a.call w fetch s).result = .ok a.path
    · rcases hc with rfl | hc
      · exact absurd hok hresult
      · exact absurd (calls_cached (cached_of_ok hok) hc).2.2 hresult
    · cases call_cases w a fetch s with
      | cached hcached hok' => exact absurd hok' hok
      | downloaded hcached hok' => exact absurd hok' hok
      | failed hcached hcause hstep hjournal hfiles =>
        rw [call_before] at hfiles
        rcases hc with rfl | hc
        · rw [call_before]
          exact ⟨.refl _ _, hfiles⟩
        · exact (ih hc).imp_left hfiles.trans

lemma named_of_onTheWay (hdown : ['.', '.'] ∉ a.path.pieces)
    (h : OnTheWay w.workingDir a.parent (a.place w)) : Path.named a.path.pieces = [] := by
  cases hparent : a.path.parent? with
  | none => exact Path.named_of_top hparent
  | some q =>
    have hq : a.parent = q := by rw [parent, hparent, Option.getD_some]
    rw [hq] at h
    have hlength := (h.above_place (Path.down_parent hparent hdown)).length_le
    rw [Path.spelled_parent hdown hparent, place, Path.spelled_down hdown] at hlength
    simp only [List.length_append, List.length_map, List.length_dropLast] at hlength
    rw [← List.length_eq_zero_iff]
    omega

lemma get?_place (habsolute : a.path.isAbsolute = true) (hdown : ['.', '.'] ∉ a.path.pieces)
    (h : Adds (OnTheWay w.workingDir a.parent) fs fs') : fs'.get? (a.place w) = fs.get? (a.place w) := by
  rcases h (a.place w) with hsame | ⟨hnone, -, hway⟩
  · exact hsame
  · rw [place, Path.spelled_down hdown, origin, if_pos habsolute, named_of_onTheWay hdown hway] at hnone
    cases hnone

lemma ofUrl_isAbsolute (url : String) {cacheDir : Path} (h : cacheDir.isAbsolute = true) :
    (ofUrl url cacheDir).path.isAbsolute = true := by
  rw [Path.isAbsolute, beq_iff_eq] at h
  obtain ⟨cs, htext⟩ := List.head?_eq_some_iff.mp h
  rw [ofUrl, Path.join]
  split_ifs with hname hend
  · exact hname
  · simp [Path.isAbsolute, htext]
  · simp [Path.isAbsolute, htext]

example : (ofUrl "https://h/v1/t.jar" ⟨"/c/"⟩).path = ⟨"/c/t.jar"⟩ := by decide +kernel

theorem calls_all_or_nothing (w : Surroundings) (url : String) (cacheDir : Path)
    (habsolute : cacheDir.isAbsolute = true) (s : Session) (fetchers : List Fetcher) :
    (∀ c ∈ (ofUrl url cacheDir).calls w fetchers s, AllOrNothing w (ofUrl url cacheDir) c) ∧
    ((ofUrl url cacheDir).calls w fetchers s).Pairwise (fun c c' =>
      c.result = .ok (ofUrl url cacheDir).path →
        c'.before = c.after ∧ c'.after = c.after ∧ c'.result = .ok (ofUrl url cacheDir).path) ∧
    (∀ c ∈ (ofUrl url cacheDir).calls w fetchers s, c.result ≠ .ok (ofUrl url cacheDir).path →
      (∀ content, c.after.files.read w.workingDir (ofUrl url cacheDir).path = .ok content →
        ∃ executable, s.files.get? ((ofUrl url cacheDir).place w) = some (.file content executable)) ∧
      (s.files.Closed → ['.', '.'] ∉ (ofUrl url cacheDir).path.pieces → ∀ found,
        c.after.files.lookup w.workingDir (ofUrl url cacheDir).path = .ok found ↔
          c.before.files.lookup w.workingDir (ofUrl url cacheDir).path = .ok found)) := by
  have hpath := ofUrl_isAbsolute url habsolute
  generalize ofUrl url cacheDir = a at hpath ⊢
  refine ⟨calls_all (call_cases w a), calls_pairwise w a fetchers s, ?_⟩
  intro c hc hresult
  obtain ⟨hbefore, hcall⟩ := calls_failed hc hresult
  constructor
  · intro content hread
    obtain ⟨executable, hlookup⟩ := read_ok.mp hread
    exact ⟨executable, (hbefore.trans hcall).file_iff.mp (lookup_place hlookup).2⟩
  · rintro hclosed hdown ⟨l, e⟩
    constructor
    · intro hlookup
      -- What is found afterwards was found from the start.
      obtain ⟨rfl, hget⟩ := lookup_place hlookup
      rw [← place, get?_place hpath hdown hcall] at hget
      have hstart : s.files.get? (a.place w) = some e := by rwa [get?_place hpath hdown hbefore] at hget
      exact lookup_grows hbefore.grows (hclosed.lookup hdown hlookup hstart) hget
    · intro hlookup
      obtain ⟨rfl, hget⟩ := lookup_place hlookup
      rw [← place, ← get?_place hpath hdown hcall] at hget
      exact lookup_grows hcall.grows hlookup hget

def nowhere : Surroundings where
  valueOf := fun _ => none
  workingDir := []
  accountHome := none
  program := fun _ _ => ⟨[], [], .exited 0⟩
  serve := fun _ _ => none

def broken : Fetcher := fun url => ⟨[112], some .connectionReset, [.fetched url]⟩

def complete : Fetcher := fun url => ⟨[106, 97, 114], none, [.fetched url]⟩

def emptyCache : FileSystem := ⟨[(["c"], .directory)]⟩

theorem calls_all_or_nothing_mixed :
    (Path.mk "/c/d").isAbsolute = true ∧ emptyCache.Closed ∧
    ['.', '.'] ∉ (ofUrl "https://h/t.jar" ⟨"/c/d"⟩).path.pieces ∧
    ((ofUrl "https://h/t.jar" ⟨"/c/d"⟩).calls nowhere [broken, complete, broken] (.start emptyCache)).map
      (fun c => c.after.files.read [] (ofUrl "https://h/t.jar" ⟨"/c/d"⟩).path) =
      [.error .notFound, .ok [106, 97, 114], .ok [106, 97, 114]] ∧
    ∀ c ∈ (ofUrl "https://h/t.jar" ⟨"/c/d"⟩).calls nowhere [broken, complete, broken] (.start emptyCache),
      c.result ≠ .ok (ofUrl "https://h/t.jar" ⟨"/c/d"⟩).path → ∀ found,
        c.after.files.lookup [] (ofUrl "https://h/t.jar" ⟨"/c/d"⟩).path = .ok found ↔
          c.before.files.lookup [] (ofUrl "https://h/t.jar" ⟨"/c/d"⟩).path = .ok found := by
  have habsolute : (Path.mk "/c/d").isAbsolute = true := by decide
  have hclosed : emptyCache.Closed := closed_of_entries (by decide +kernel)
  have hup : ['.', '.'] ∉ (ofUrl "https://h/t.jar" ⟨"/c/d"⟩).path.pieces := by decide +kernel
  refine ⟨habsolute, hclosed, hup, by decide +kernel, ?_⟩
  intro c hc hresult
  exact ((calls_all_or_nothing nowhere "https://h/t.jar" ⟨"/c/d"⟩ habsolute (.start emptyCache)
    [broken, complete, broken]).2.2 c hc hresult).2 hclosed hup

def staleCache : FileSystem := ⟨[(["c"], .directory), (["c", "t.jar"], .file [111] false)]⟩

/-- The directories that a failing call makes can be what was missing on the way to a file. -/
theorem failed_call_uncovers :
    ¬ ∀ (w : Surroundings) (url : String) (cacheDir : Path), cacheDir.isAbsolute = true →
      ∀ (s : Session) (fetchers : List Fetcher), s.files.Closed →
      ∀ c ∈ (ofUrl url cacheDir).calls w fetchers s, c.result ≠ .ok (ofUrl url cacheDir).path →
        ∀ content, c.after.files.read w.workingDir (ofUrl url cacheDir).path = .ok content ↔
          c.before.files.read w.workingDir (ofUrl url cacheDir).path = .ok content := by
  intro h
  have hclosed : staleCache.Closed := closed_of_entries (by decide +kernel)
  have hcall := h nowhere "https://h/t.jar" ⟨"/x/../c"⟩ (by decide) (.start staleCache) [broken] hclosed
    _ List.mem_cons_self
  have huncovered := (hcall (by decide +kernel) [111]).mp (by decide +kernel)
  revert huncovered
  decide +kernel

end

end AdocProse.Artifact
