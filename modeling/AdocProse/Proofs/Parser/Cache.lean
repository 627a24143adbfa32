import AdocProse.Proofs.Parser.Provision
import AdocProse.Proofs.System.Names

/-! One cache directory for the artifacts of any addresses. A file in it has the name that an address ends with, so
of the addresses with one ending the first one that is downloaded decides what all of them get. -/

namespace AdocProse

open FileSystem

namespace Artifact

section

variable {w : Surroundings} {a : Artifact} {fetch : Fetcher} {s s' : Session} {cacheDir p : Path} {url : String}

@[simp] lemma call_fetch : (a.call w fetch s).fetch = fetch := by
  rw [call]
  split <;> rfl

lemma download_moves (h : a.download w fetch s = .ok () s') : ∃ fs tmp, Grows s.files fs ∧ tmp ≠ [] ∧
    fs.get? tmp = none ∧
    (fs.put tmp (.file (fetch a.url).bytes false)).rename w.workingDir tmp a.path = .ok s'.files := by
  have hends := downloads w a fetch s
  rw [h] at hends
  cases hends with
  | @moved fs tmp fs' hmake htmp hfetch hmove =>
    obtain ⟨hnew, name, hname, -⟩ := freshLocation_ok htmp
    exact ⟨fs, tmp, (makeDirectories_adds hmake).grows, by simp [hname], hnew, hmove⟩

lemma download_replaces (h : a.download w fetch s = .ok () s') :
    s.files.get? (a.place w) ≠ some .directory ∧
      ∃ (fs : FileSystem) (parent : Location) (name : String),
        fs.resolve w.workingDir a.path = .ok (.entry parent name) := by
  obtain ⟨fs, tmp, hgrows, hne, hnew, hmove⟩ := download_moves h
  obtain ⟨e, parent, name, -, hresolve, hfree, -⟩ := rename_ok hmove
  have hplace : parent ++ [name] = a.place w := resolve_location hresolve
  rw [hplace] at hfree
  exact ⟨fun hdirectory => hfree (put_grows hnew _ (hgrows _ hdirectory)), _, parent, name, hresolve⟩

lemma call_replaces (hcached : a.isCached s.files w.workingDir = false) (h : (a.call w fetch s).result = .ok p) :
    s.files.get? (a.place w) ≠ some .directory ∧
      ∃ (fs : FileSystem) (parent : Location) (name : String),
        fs.resolve w.workingDir a.path = .ok (.entry parent name) := by
  cases hdownload : a.download w fetch ⟨s.files, s.journal ++ [a.beginning]⟩ with
  | error cause s' =>
    rw [call_failed hcached hdownload] at h
    cases h
  | ok _ s' => exact (download_replaces hdownload :)

lemma call_grows (w : Surroundings) (a : Artifact) (fetch : Fetcher) (s : Session) :
    Grows s.files (a.call w fetch s).after.files := by
  have hcases := call_cases w a fetch s
  cases hcases with
  | cached hcached hresult hafter =>
    rw [hafter, call_before]
    exact .refl _
  | failed hcached hresult hstep hjournal hfiles =>
    rw [call_before] at hfiles
    exact hfiles.grows
  | downloaded hcached hresult hfetched hjournal hfound hfiles =>
    rw [call_before] at hcached hfiles
    intro l hl
    have hother : l ≠ a.place w := by
      rintro rfl
      exact (call_replaces hcached hresult).1 hl
    rcases hfiles l hother with hsame | ⟨hnone, -⟩
    · rw [hsame, hl]
    · rw [hl] at hnone
      cases hnone

lemma path_ofUrl (url : String) (cacheDir : Path) :
    (ofUrl url cacheDir).path = cacheDir.join (fileName url) := by
  rw [ofUrl]

lemma fileName_whole (url : String) : '/' ∉ (fileName url).toList := by
  have hlast := List.getLast?_eq_some_getLast (Pieces.split_ne_nil '/' url.toList)
  rw [fileName, hlast, Option.getD_some, String.toList_ofList]
  exact Pieces.separator_notMem (List.getLast_mem _)

lemma isName_of_call (hworking : s.files.StandsIn w.workingDir)
    (h : ((ofUrl url cacheDir).call w fetch s).result = .ok p) : IsName (fileName url) := by
  cases hcached : (ofUrl url cacheDir).isCached s.files w.workingDir with
  | true =>
    rw [isCached, path_ofUrl] at hcached
    exact hworking.isName (fileName_whole url) hcached
  | false =>
    obtain ⟨-, fs, parent, name, hresolve⟩ := call_replaces hcached h
    rw [path_ofUrl] at hresolve
    exact isName_of_resolve (fileName_whole url) hresolve

lemma place_ofUrl (hname : IsName (fileName url)) :
    (ofUrl url cacheDir).place w = spelled w.workingDir cacheDir ++ [fileName url] := by
  rw [place, path_ofUrl, spelled_join hname]

end

structure Order where
  url : String
  fetch : Fetcher

structure Visit where
  url : String
  call : Call

def visit (w : Surroundings) (cacheDir : Path) (o : Order) (s : Session) : Visit :=
  ⟨o.url, (ofUrl o.url cacheDir).call w o.fetch s⟩

def visits (w : Surroundings) (cacheDir : Path) : List Order → Session → List Visit
  | [], _ => []
  | o :: orders, s => visit w cacheDir o s :: visits w cacheDir orders (visit w cacheDir o s).call.after

/-- The first call that did not fail for an address with the ending. -/
def firstServed? (vs : List Visit) (name : String) : Option Visit :=
  vs.find? fun v => v.call.result.isOk && fileName v.url == name

/-- The cache directory after some calls: of each name it has the bytes of the address that was served first, or no
file if there was none. -/
structure Coherent (w : Surroundings) (cacheDir : Path) (source : String → List UInt8) (past : List Visit)
    (fs : FileSystem) : Prop where
  working : fs.StandsIn w.workingDir
  missing : ∀ name, IsName name → firstServed? past name = none →
    fs.isFileAt (spelled w.workingDir cacheDir ++ [name]) = false
  kept : ∀ name v, firstServed? past name = some v →
    fs.read w.workingDir (cacheDir.join name) = .ok (source v.url)

section

variable {w : Surroundings} {a : Artifact} {fetch : Fetcher} {s : Session} {cacheDir p : Path} {url name : String}
  {o : Order} {source : String → List UInt8} {past : List Visit} {v : Visit} {fs fs' : FileSystem}

lemma firstServed?_concat (past : List Visit) (v : Visit) (name : String) : firstServed? (past ++ [v]) name =
    (firstServed? past name).or (if v.call.result.isOk && fileName v.url == name then some v else none) := by
  rw [firstServed?, List.find?_append, List.find?_singleton]
  rfl

lemma firstServed?_unserved (h : v.call.result.isOk = false) (name : String) :
    firstServed? (past ++ [v]) name = firstServed? past name := by
  simp [firstServed?_concat, h]

lemma firstServed?_other (h : fileName v.url ≠ name) :
    firstServed? (past ++ [v]) name = firstServed? past name := by
  simp [firstServed?_concat, h]

lemma firstServed?_again (h : firstServed? past (fileName v.url) ≠ none) (name : String) :
    firstServed? (past ++ [v]) name = firstServed? past name := by
  by_cases hname : fileName v.url = name
  · obtain ⟨first, hfirst⟩ := Option.ne_none_iff_exists'.mp h
    rw [firstServed?_concat, ← hname, hfirst, Option.some_or]
  · exact firstServed?_other hname

lemma firstServed?_new (h : firstServed? past (fileName v.url) = none) (hok : v.call.result.isOk = true) :
    firstServed? (past ++ [v]) (fileName v.url) = some v := by
  simp [firstServed?_concat, h, hok]

lemma firstServed?_served (past : List Visit) (hok : v.call.result.isOk = true) :
    firstServed? (past ++ [v]) (fileName v.url) ≠ none := by
  simp [firstServed?_concat, hok]

lemma firstServed?_some (h : firstServed? past name = some v) : v ∈ past ∧ fileName v.url = name := by
  have hfound := List.find?_some h
  rw [Bool.and_eq_true, beq_iff_eq] at hfound
  exact ⟨List.mem_of_find?_eq_some h, hfound.2⟩

lemma read_grows (hgrows : Grows fs fs') {content : List UInt8} (h : fs.read w.workingDir p = .ok content)
    (hfile : fs'.get? (spelled w.workingDir p) = fs.get? (spelled w.workingDir p)) :
    fs'.read w.workingDir p = .ok content := by
  obtain ⟨executable, hlookup⟩ := read_ok.mp h
  have hget := (lookup_place hlookup).2
  exact read_ok.mpr ⟨executable, lookup_grows hgrows hlookup (hfile.trans hget)⟩

namespace Coherent

lemma start (hworking : fs.StandsIn w.workingDir)
    (hempty : ∀ name, fs.get? (spelled w.workingDir cacheDir ++ [name]) = none) :
    Coherent w cacheDir source [] fs where
  working := hworking
  missing name _ _ := by rw [isFileAt, hempty name]
  kept name v h := by cases h

lemma adds (h : Coherent w cacheDir source past fs) {allowed : Location → Prop} (hadds : Adds allowed fs fs')
    {past' : List Visit} (hfirst : ∀ name, firstServed? past' name = firstServed? past name) :
    Coherent w cacheDir source past' fs' where
  working := h.working.grows hadds.grows
  missing name hname hnone := by
    have hbefore := h.missing name hname (hfirst name ▸ hnone)
    by_contra hfile
    rw [Bool.not_eq_false, isFileAt_iff] at hfile
    obtain ⟨content, executable, hget⟩ := hfile
    have hfile' := isFileAt_iff.mpr ⟨content, executable, hadds.file_iff.mp hget⟩
    rw [hbefore] at hfile'
    cases hfile'
  kept name v hv := by
    have hread := h.kept name v (hfirst name ▸ hv)
    obtain ⟨executable, hlookup⟩ := read_ok.mp hread
    have hget := (lookup_place hlookup).2
    exact read_grows hadds.grows hread ((hadds.file_iff.mpr hget).trans hget.symm)

lemma served_of_cached (h : Coherent w cacheDir source past fs)
    (hcached : (ofUrl url cacheDir).isCached fs w.workingDir = true) :
    firstServed? past (fileName url) ≠ none := by
  rw [isCached, path_ofUrl] at hcached
  have hname := h.working.isName (fileName_whole url) hcached
  intro hnone
  obtain ⟨content, executable, hlookup⟩ := isFile_iff.mp hcached
  have hget := (lookup_place hlookup).2
  have hfile := isFileAt_iff.mpr ⟨content, executable, hget⟩
  rw [spelled_join hname, h.missing _ hname hnone] at hfile
  cases hfile

lemma unserved_of_not_cached (h : Coherent w cacheDir source past fs)
    (hcached : (ofUrl url cacheDir).isCached fs w.workingDir = false) :
    firstServed? past (fileName url) = none := by
  rw [isCached, path_ofUrl] at hcached
  by_contra hserved
  obtain ⟨v, hv⟩ := Option.ne_none_iff_exists'.mp hserved
  have hfile := isFile_iff_read.mpr ⟨_, h.kept _ _ hv⟩
  rw [hcached] at hfile
  cases hfile

/-- A download puts a file under one name, and leaves the files with other names as they were. -/
lemma put (h : Coherent w cacheDir source past fs) (hgrows : Grows fs fs')
    (hnew : firstServed? past (fileName v.url) = none) (hok : v.call.result.isOk = true)
    (hread : fs'.read w.workingDir (cacheDir.join (fileName v.url)) = .ok (source v.url))
    (hfiles : ∀ l, l ≠ spelled w.workingDir cacheDir ++ [fileName v.url] →
      fs'.get? l = fs.get? l ∨ fs.get? l = none ∧ fs'.get? l = some .directory) :
    Coherent w cacheDir source (past ++ [v]) fs' := by
  have hother : ∀ name, fileName v.url ≠ name → spelled w.workingDir cacheDir ++ [name] ≠
      spelled w.workingDir cacheDir ++ [fileName v.url] :=
    fun name hne hsame => hne (List.append_singleton_inj.mp hsame).2.symm
  refine ⟨h.working.grows hgrows, fun name hisName hnone => ?_, fun name first hfirst => ?_⟩
  · by_cases hsame : fileName v.url = name
    · rw [← hsame, firstServed?_new hnew hok] at hnone
      cases hnone
    · rw [firstServed?_other hsame] at hnone
      rcases hfiles _ (hother name hsame) with hget | ⟨-, hget⟩
      · rw [isFileAt, hget]
        exact h.missing name hisName hnone
      · rw [isFileAt, hget]
  · by_cases hsame : fileName v.url = name
    · rw [← hsame, firstServed?_new hnew hok, Option.some.injEq] at hfirst
      rw [← hsame, ← hfirst]
      exact hread
    · rw [firstServed?_other hsame] at hfirst
      have hbefore := h.kept name first hfirst
      obtain ⟨executable, hlookup⟩ := read_ok.mp hbefore
      have hwhole : '/' ∉ name.toList := (firstServed?_some hfirst).2 ▸ fileName_whole first.url
      have hisName := h.working.isName hwhole (isFile_iff.mpr ⟨_, executable, hlookup⟩)
      have hget := (lookup_place hlookup).2
      refine read_grows hgrows hbefore ?_
      rw [spelled_join hisName] at hget ⊢
      rcases hfiles _ (hother name hsame) with hkept | ⟨hnone, -⟩
      · exact hkept
      · rw [hnone] at hget
        cases hget

lemma after_call {c : Call} (h : Coherent w cacheDir source past c.before.files)
    (hcases : AllOrNothing w (ofUrl url cacheDir) c) (hgrows : Grows c.before.files c.after.files)
    (hname : ∀ p, c.result = .ok p → IsName (fileName url))
    (hdelivers : (c.fetch url).failure = none → (c.fetch url).bytes = source url) :
    Coherent w cacheDir source (past ++ [⟨url, c⟩]) c.after.files := by
  cases hcases with
  | cached hcached hresult hafter =>
    rw [hafter]
    exact h.adds (.refl (fun _ => False) _) (firstServed?_again (h.served_of_cached hcached))
  | failed hcached hresult hstep hjournal hfiles =>
    exact h.adds hfiles (firstServed?_unserved (by rw [hresult]; rfl))
  | downloaded hcached hresult hfetched hjournal hfound hfiles =>
    have hok : c.result.isOk = true := by
      rw [hresult]
      rfl
    have hread : c.after.files.read w.workingDir (cacheDir.join (fileName url)) = .ok (source url) := by
      rw [path_ofUrl] at hfound
      rw [← hdelivers hfetched]
      exact hfound
    rw [place_ofUrl (hname _ hresult)] at hfiles
    exact h.put (v := ⟨url, c⟩) hgrows (h.unserved_of_not_cached hcached) hok hread
      fun l hl => (hfiles l hl).imp_right fun hnew => ⟨hnew.1, hnew.2.1⟩

lemma step (h : Coherent w cacheDir source past s.files)
    (hdelivers : (o.fetch o.url).failure = none → (o.fetch o.url).bytes = source o.url) :
    Coherent w cacheDir source (past ++ [visit w cacheDir o s]) (visit w cacheDir o s).call.after.files := by
  have hcases := call_cases w (ofUrl o.url cacheDir) o.fetch s
  have hgrows := call_grows w (ofUrl o.url cacheDir) o.fetch s
  have hname : ∀ p, ((ofUrl o.url cacheDir).call w o.fetch s).result = .ok p → IsName (fileName o.url) :=
    fun _ hresult => isName_of_call h.working hresult
  rw [visit]
  have hbefore : ((ofUrl o.url cacheDir).call w o.fetch s).before = s := call_before
  have hfetch : ((ofUrl o.url cacheDir).call w o.fetch s).fetch = o.fetch := call_fetch
  generalize (ofUrl o.url cacheDir).call w o.fetch s = c at *
  subst hbefore
  exact h.after_call hcases hgrows hname (hfetch ▸ hdelivers)

lemma runs {orders : List Order} (h : Coherent w cacheDir source past s.files)
    (hdelivers : ∀ o ∈ orders, (o.fetch o.url).failure = none → (o.fetch o.url).bytes = source o.url)
    {earlier later : List Visit} (hvisits : visits w cacheDir orders s = earlier ++ v :: later) :
    Coherent w cacheDir source (past ++ (earlier ++ [v])) v.call.after.files := by
  induction orders generalizing past s earlier with
  | nil => simp [visits] at hvisits
  | cons o orders ih =>
    rw [List.forall_mem_cons] at hdelivers
    rw [visits] at hvisits
    have hstep := h.step hdelivers.1
    cases earlier with
    | nil =>
      rw [List.nil_append, List.cons.injEq] at hvisits
      rw [hvisits.1] at hstep
      exact hstep
    | cons first earlier =>
      rw [List.cons_append, List.cons.injEq] at hvisits
      have hrest := ih hstep hdelivers.2 hvisits.2
      rw [hvisits.1] at hrest
      rwa [List.append_assoc, List.singleton_append] at hrest

end Coherent

lemma exists_call {orders : List Order} (h : v ∈ visits w cacheDir orders s) :
    ∃ fetch before, v.call = (ofUrl v.url cacheDir).call w fetch before := by
  induction orders generalizing s with
  | nil => cases h
  | cons o orders ih =>
    rw [visits, List.mem_cons] at h
    rcases h with rfl | h
    · exact ⟨o.fetch, s, by rw [visit]⟩
    · exact ih h

lemma call_path (h : (a.call w fetch s).result = .ok p) : p = a.path := by
  have hcases := call_cases w a fetch s
  cases hcases with
  | cached hcached hresult | downloaded hcached hresult =>
    rw [hresult, Except.ok.injEq] at h
    exact h.symm
  | failed hcached hresult =>
    rw [hresult] at h
    cases h

end

/-- Whenever a call for an address gets a path, it is the path of its artifact, and the file there has the bytes of
the address that was the first one with the same ending to be served. These are its own bytes if no address with
that ending has others. -/
theorem cached_bytes (w : Surroundings) (cacheDir : Path) (source : String → List UInt8) (s : Session)
    (orders : List Order) (hworking : s.files.StandsIn w.workingDir)
    (hempty : ∀ name, s.files.get? (spelled w.workingDir cacheDir ++ [name]) = none)
    (hdelivers : ∀ o ∈ orders, (o.fetch o.url).failure = none → (o.fetch o.url).bytes = source o.url)
    (earlier later : List Visit) (v : Visit) (hvisits : visits w cacheDir orders s = earlier ++ v :: later)
    (p : Path) (hresult : v.call.result = .ok p) :
    p = (ofUrl v.url cacheDir).path ∧
    (∃ first, firstServed? (earlier ++ [v]) (fileName v.url) = some first ∧
      v.call.after.files.read w.workingDir p = .ok (source first.url)) ∧
    ((∀ u ∈ earlier, fileName u.url = fileName v.url → source u.url = source v.url) →
      v.call.after.files.read w.workingDir p = .ok (source v.url)) := by
  have hcoherent := (Coherent.start hworking hempty).runs hdelivers hvisits
  obtain ⟨fetch, before, hcall⟩ := exists_call (v := v) (by rw [hvisits]; simp)
  obtain rfl := call_path (hcall ▸ hresult)
  have hok : v.call.result.isOk = true := by
    rw [hresult]
    rfl
  obtain ⟨first, hfirst⟩ := Option.ne_none_iff_exists'.mp (firstServed?_served earlier hok)
  have hread := hcoherent.kept _ first hfirst
  rw [path_ofUrl]
  refine ⟨rfl, ⟨first, hfirst, hread⟩, fun hsame => ?_⟩
  obtain ⟨hmem, hname⟩ := firstServed?_some hfirst
  rcases List.mem_append.mp hmem with hmem | hmem
  · rw [hsame first hmem hname] at hread
    exact hread
  · rw [List.mem_singleton.mp hmem] at hread
    exact hread

def releases (url : String) : List UInt8 :=
  if url = "https://a/t.jar" then [97] else if url = "https://b/t.jar" then [98] else [99]

def delivering : Fetcher := fun url => ⟨releases url, none, [.fetched url]⟩

def releaseOrders : List Order :=
  [⟨"https://a/t.jar", broken⟩, ⟨"https://b/t.jar", delivering⟩, ⟨"https://a/t.jar", delivering⟩]

lemma standsIn_root (fs : FileSystem) : fs.StandsIn nowhere.workingDir := by
  intro l hl
  rw [List.prefix_nil.mp hl]
  rfl

lemma emptyCache_empty (name : String) :
    emptyCache.get? (spelled nowhere.workingDir ⟨"/c/d"⟩ ++ [name]) = none := by
  have hplace : spelled nowhere.workingDir ⟨"/c/d"⟩ = ["c", "d"] := by decide +kernel
  rw [hplace]
  rfl

theorem cached_bytes_releases : ∃ earlier v,
    visits nowhere ⟨"/c/d"⟩ releaseOrders (.start emptyCache) = earlier ++ [v] ∧ v.url = "https://a/t.jar" ∧
    v.call.result = .ok ⟨"/c/d/t.jar"⟩ ∧ ∃ first, firstServed? (earlier ++ [v]) "t.jar" = some first ∧
      first.url = "https://b/t.jar" ∧
      v.call.after.files.read nowhere.workingDir ⟨"/c/d/t.jar"⟩ = .ok (releases first.url) := by
  have hdelivers : ∀ o ∈ releaseOrders, (o.fetch o.url).failure = none → (o.fetch o.url).bytes = releases o.url := by
    decide +kernel
  obtain ⟨earlier, v, hvisits, hurl, hresult, hfirst⟩ : ∃ earlier v,
      visits nowhere ⟨"/c/d"⟩ releaseOrders (.start emptyCache) = earlier ++ [v] ∧ v.url = "https://a/t.jar" ∧
      v.call.result = .ok ⟨"/c/d/t.jar"⟩ ∧
      (firstServed? (earlier ++ [v]) "t.jar").map Visit.url = some "https://b/t.jar" :=
    ⟨[_, _], _, rfl, rfl, by decide +kernel, by decide +kernel⟩
  obtain ⟨-, ⟨first, hserved, hread⟩, -⟩ := cached_bytes nowhere ⟨"/c/d"⟩ releases (.start emptyCache) releaseOrders
    (standsIn_root _) emptyCache_empty hdelivers earlier [] v hvisits _ hresult
  have hname : fileName v.url = "t.jar" := by
    rw [hurl]
    decide +kernel
  rw [hname] at hserved
  rw [hserved, Option.map_some, Option.some.injEq] at hfirst
  exact ⟨earlier, v, hvisits, hurl, hresult, first, hserved, hfirst, hread⟩

/-- The file of one address is served for another one that ends in the same name. -/
theorem cached_bytes_foreign :
    ¬ ∀ (w : Surroundings) (cacheDir : Path) (source : String → List UInt8) (s : Session) (orders : List Order),
      s.files.StandsIn w.workingDir →
      (∀ name, s.files.get? (spelled w.workingDir cacheDir ++ [name]) = none) →
      (∀ o ∈ orders, o.fetch = fun url => ⟨source url, none, [.fetched url]⟩) →
      ∀ v ∈ visits w cacheDir orders s, ∀ p, v.call.result = .ok p →
        v.call.after.files.read w.workingDir p = .ok (source v.url) := by
  intro h
  have hserved := h nowhere ⟨"/c/d"⟩ releases (.start emptyCache)
    [⟨"https://b/t.jar", delivering⟩, ⟨"https://a/t.jar", delivering⟩] (standsIn_root _) emptyCache_empty (by simp; rfl)
    _ (List.mem_cons_of_mem _ List.mem_cons_self) ⟨"/c/d/t.jar"⟩ (by decide +kernel)
  revert hserved
  decide +kernel

end Artifact

end AdocProse
