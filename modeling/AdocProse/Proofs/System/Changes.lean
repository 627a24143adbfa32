import AdocProse.Proofs.System.Path
import Mathlib.Data.List.TakeWhile
import Mathlib.Logic.Relation

/-! What the operations on a file system change: making a directory and those above it adds directories
on the way of the path and nothing else, and renaming a file moves it to the place that the path spells. -/

namespace AdocProse.FileSystem

lemma split_append_replicate (separator : Char) (cs : List Char) (k : Nat) :
    Pieces.split separator (cs ++ List.replicate k separator) =
      Pieces.split separator cs ++ List.replicate k [] := by
  induction k generalizing cs with
  | zero => simp
  | succ k ih =>
    have hrest := ih []
    rw [List.nil_append] at hrest
    rw [List.replicate_succ, Pieces.split_append_separator, hrest]
    simp [Pieces.split, List.replicate_succ]

lemma foldl_toward_replicate (l : Location) (k : Nat) : (List.replicate k []).foldl toward l = l := by
  induction k with
  | zero => rfl
  | succ k ih =>
    rw [List.replicate_succ, List.foldl_cons]
    exact ih

lemma withoutEndSlashes_eq (p : Path) : ∃ cs k, p.text.toList = cs ++ List.replicate k '/' ∧
    withoutEndSlashes p = if cs = [] then p else ⟨String.ofList cs⟩ := by
  have hcut := List.takeWhile_append_dropWhile (p := (· == '/')) (l := p.text.toList.reverse)
  have hslashes : p.text.toList.reverse.takeWhile (· == '/') =
      List.replicate (p.text.toList.reverse.takeWhile (· == '/')).length '/' :=
    List.eq_replicate_of_mem fun c hc => by simpa using List.mem_takeWhile_imp hc
  refine ⟨(p.text.toList.reverse.dropWhile (· == '/')).reverse,
    (p.text.toList.reverse.takeWhile (· == '/')).length, ?_, rfl⟩
  rw [← List.reverse_replicate, ← hslashes, ← List.reverse_append, hcut, List.reverse_reverse]

section

variable {fs fs' fs'' : FileSystem} {l : Location} {workingDir : Location} {p q : Path} {e : Entry}

lemma spelled_withoutEndSlashes (workingDir : Location) (p : Path) :
    spelled workingDir (withoutEndSlashes p) = spelled workingDir p := by
  obtain ⟨cs, k, htext, hcut⟩ := withoutEndSlashes_eq p
  rw [hcut]
  split_ifs with hcs
  · rfl
  · have hhead : (cs ++ List.replicate k '/').head? = cs.head? := by
      obtain ⟨c, cs, rfl⟩ := List.exists_cons_of_ne_nil hcs
      rfl
    simp only [spelled_eq, origin, Path.isAbsolute, Path.pieces, String.toList_ofList, htext, hhead,
      split_append_replicate, List.foldl_append, foldl_toward_replicate]

lemma named_withoutEndSlashes (p : Path) : Path.named (withoutEndSlashes p).pieces = Path.named p.pieces := by
  obtain ⟨cs, k, htext, hcut⟩ := withoutEndSlashes_eq p
  rw [hcut]
  split_ifs
  · rfl
  · have hidle : Path.named (List.replicate k []) = [] := by simp [Path.named, Path.isIdle]
    simp only [Path.pieces, String.toList_ofList, htext, split_append_replicate, Path.named_append, hidle,
      List.append_nil]

/-- The file system has new directories at places that are allowed, and is else as it was. -/
def Adds (allowed : Location → Prop) (fs fs' : FileSystem) : Prop :=
  ∀ l, fs'.get? l = fs.get? l ∨ fs.get? l = none ∧ fs'.get? l = some .directory ∧ allowed l

namespace Adds

variable {allowed : Location → Prop}

lemma refl (allowed : Location → Prop) (fs : FileSystem) : Adds allowed fs fs :=
  fun _ => .inl rfl

lemma trans (h : Adds allowed fs fs') (h' : Adds allowed fs' fs'') : Adds allowed fs fs'' := by
  intro l
  rcases h l with hl | ⟨hl, hl', hallowed⟩
  · rw [← hl]
    exact h' l
  · rcases h' l with hl'' | ⟨hl'', -, -⟩
    · exact .inr ⟨hl, hl''.trans hl', hallowed⟩
    · rw [hl''] at hl'
      cases hl'

lemma mono {allowed' : Location → Prop} (hsub : ∀ l, allowed l → allowed' l) (h : Adds allowed fs fs') :
    Adds allowed' fs fs' :=
  fun l => (h l).imp_right fun hl => ⟨hl.1, hl.2.1, hsub l hl.2.2⟩

lemma grows (h : Adds allowed fs fs') : Grows fs fs' := by
  intro l hl
  rcases h l with hl' | ⟨hnone, hl', -⟩
  · rw [hl', hl]
  · exact hl'

lemma file_iff (h : Adds allowed fs fs') {content : List UInt8} {executable : Bool} :
    fs'.get? l = some (.file content executable) ↔ fs.get? l = some (.file content executable) := by
  rcases h l with hl | ⟨hnone, hl, -⟩
  · rw [hl]
  · rw [hnone, hl]
    simp

end Adds

lemma makeDirectory_ok (h : fs.makeDirectory workingDir p = .ok fs') : ∃ parent name,
    fs.resolve workingDir (withoutEndSlashes p) = .ok (.entry parent name) ∧
      fs.get? (parent ++ [name]) = none ∧ fs' = fs.put (parent ++ [name]) .directory := by
  rw [makeDirectory] at h
  cases hresolve : fs.resolve workingDir (withoutEndSlashes p) with
  | error kind =>
    rw [hresolve] at h
    cases h
  | ok t =>
    rw [hresolve] at h
    cases t with
    | directory l => cases h
    | entry parent name =>
      cases hget : fs.get? (parent ++ [name]) with
      | some e => simp [bind, Except.bind, hget] at h
      | none =>
        simp only [bind, Except.bind, hget, Except.ok.injEq] at h
        exact ⟨parent, name, rfl, hget, h.symm⟩

lemma named_of_entry {parent : Location} {name : String} (h : fs.resolve workingDir p = .ok (.entry parent name)) :
    Path.named p.pieces ≠ [] := by
  obtain ⟨-, last, hlast, ⟨-, l, -, hl⟩ | ⟨hdots, -⟩⟩ := resolve_ok.mp h
  · cases hl
  · rw [isDots, Bool.or_eq_false_iff] at hdots
    exact List.ne_nil_of_mem (List.mem_filter.mpr ⟨List.mem_of_getLast? hlast, by simp [hdots.1]⟩)

/-- A place that a path or one of the paths above it spells. -/
def OnTheWay (workingDir : Location) (p : Path) (l : Location) : Prop :=
  ∃ q, Relation.ReflTransGen (fun p q : Path => p.parent? = some q) p q ∧ spelled workingDir q = l

/-- Such a place at which a directory can be made, since the path has a name in it. -/
def Makes (workingDir : Location) (p : Path) (l : Location) : Prop :=
  ∃ q, Relation.ReflTransGen (fun p q : Path => p.parent? = some q) p q ∧ Path.named q.pieces ≠ [] ∧
    spelled workingDir q = l

lemma OnTheWay.above_place (hdown : ['.', '.'] ∉ p.pieces) (h : OnTheWay workingDir p l) :
    l <+: spelled workingDir p := by
  obtain ⟨q, hq, rfl⟩ := h
  induction hq using Relation.ReflTransGen.head_induction_on with
  | refl => exact List.prefix_rfl
  | @head p q hparent hrest ih =>
    refine (ih (Path.down_parent hparent hdown)).trans ?_
    rw [Path.spelled_parent hdown hparent, Path.spelled_down hdown, List.prefix_append_right_inj]
    exact (List.dropLast_prefix _).map _

lemma Makes.onTheWay (h : Makes workingDir p l) : OnTheWay workingDir p l := by
  obtain ⟨q, hq, -, hl⟩ := h
  exact ⟨q, hq, hl⟩

lemma Makes.above (hparent : p.parent? = some q) (h : Makes workingDir q l) : Makes workingDir p l := by
  obtain ⟨r, hr, hnamed, hl⟩ := h
  exact ⟨r, .head hparent hr, hnamed, hl⟩

lemma Makes.named (h : Makes workingDir p l) : Path.named p.pieces ≠ [] := by
  obtain ⟨q, hq, hnamed, -⟩ := h
  induction hq using Relation.ReflTransGen.head_induction_on with
  | refl => exact hnamed
  | head hparent hrest ih =>
    intro hnone
    rw [Path.named_parent hparent, hnone] at ih
    exact ih rfl

lemma makeDirectory_makes (h : fs.makeDirectory workingDir p = .ok fs') : Adds (Makes workingDir p) fs fs' := by
  obtain ⟨parent, name, hresolve, hnone, rfl⟩ := makeDirectory_ok h
  have hnamed := named_of_entry hresolve
  have hplace : parent ++ [name] = spelled workingDir (withoutEndSlashes p) := resolve_location hresolve
  rw [named_withoutEndSlashes] at hnamed
  rw [spelled_withoutEndSlashes] at hplace
  intro l
  by_cases hl : l = parent ++ [name]
  · subst hl
    exact .inr ⟨hnone, get?_put_self (by simp), p, .refl, hnamed, hplace.symm⟩
  · exact .inl (get?_put_ne hl)

lemma makeDirectoriesFor_makes (workingDir : Location) (fuel : Nat) (p : Path) (fs : FileSystem) :
    Adds (Makes workingDir p) fs (makeDirectoriesFor workingDir fuel p fs).2 := by
  fun_induction makeDirectoriesFor workingDir fuel p fs with
  | case1 | case3 | case4 | case8 => exact .refl _ _
  | case2 fuel p fs hempty fs' hmade => exact makeDirectory_makes hmade
  | case5 p fs hempty hmissing q fuel hparent e fs' habove ih =>
    rw [habove] at ih
    exact ih.mono fun l => Makes.above hparent
  | case6 p fs hempty hmissing q fuel hparent fs' habove fs'' hmade ih =>
    rw [habove] at ih
    exact (ih.mono fun l => Makes.above hparent).trans (makeDirectory_makes hmade)
  | case7 p fs hempty hmissing q fuel hparent fs' habove e hmade ih =>
    rw [habove] at ih
    exact ih.mono fun l => Makes.above hparent

lemma makeDirectories_makes {made : Except IoKind Unit}
    (h : fs.makeDirectories workingDir p = (made, fs')) : Adds (Makes workingDir p) fs fs' := by
  have hadds := makeDirectoriesFor_makes workingDir (p.pieces.length + 1) p fs
  rw [makeDirectories] at h
  rwa [h] at hadds

lemma makeDirectories_adds {made : Except IoKind Unit}
    (h : fs.makeDirectories workingDir p = (made, fs')) : Adds (OnTheWay workingDir p) fs fs' :=
  (makeDirectories_makes h).mono fun _ => Makes.onTheWay

lemma length_le_join {names : List String} {name : String} (h : name ∈ names) :
    name.length ≤ (String.join names).length := by
  induction names with
  | nil => cases h
  | cons first names ih =>
    rw [String.join_cons, String.length_append]
    rcases List.mem_cons.mp h with rfl | h
    · exact Nat.le_add_right _ _
    · exact (ih h).trans (Nat.le_add_left _ _)

lemma freshName_notMem (taken : List String) : freshName taken ∉ taken := by
  intro hmem
  have hlong := length_le_join hmem
  have htmp : ".tmp".length = 4 := rfl
  simp only [freshName, String.length_append, htmp, String.length_ofList, List.length_replicate] at hlong
  omega

lemma mem_names {name : String} (h : fs.get? (l ++ [name]) ≠ none) : name ∈ fs.names l := by
  obtain ⟨e, he⟩ := Option.ne_none_iff_exists'.mp h
  have hmem := mem_entries (by simp) he
  exact List.mem_filterMap.mpr ⟨_, hmem, by simp⟩

lemma freshLocation_iff {dir : Path} {avoid : List String} :
    fs.freshLocation workingDir dir avoid = .ok l ↔ ∃ t : Target,
      (if dir.text.toList = [] then .ok (.directory workingDir) else fs.resolve workingDir dir) = .ok t ∧
      fs.get? t.location = some .directory ∧
      t.location ++ [freshName (avoid ++ fs.names t.location)] = l := by
  by_cases hempty : dir.text.toList = []
  · simp only [freshLocation, if_pos hempty, bind, Except.bind, pure, Except.pure, Except.ok.injEq, exists_eq_left']
    rcases fs.get? (Target.directory workingDir).location with _ | _ | _ <;> simp
  · simp only [freshLocation, if_neg hempty, bind, Except.bind]
    cases fs.resolve workingDir dir with
    | error kind => simp
    | ok t =>
      simp only [Except.ok.injEq, exists_eq_left']
      rcases fs.get? t.location with _ | _ | _ <;> simp

lemma freshLocation_ok {dir : Path} {avoid : List String} {tmp : Location}
    (h : fs.freshLocation workingDir dir avoid = .ok tmp) : fs.get? tmp = none ∧
      ∃ name, tmp = spelled workingDir dir ++ [name] ∧ name ∉ avoid := by
  obtain ⟨t, htarget, -, rfl⟩ := freshLocation_iff.mp h
  have hplace : t.location = spelled workingDir dir := by
    split at htarget
    · next hempty =>
      cases htarget
      simp [Target.location, spelled_eq, origin, Path.pieces, Path.isAbsolute, hempty, Pieces.split,
        toward, Path.isIdle]
    · exact resolve_location htarget
  have hfresh := freshName_notMem (avoid ++ fs.names t.location)
  rw [List.mem_append, not_or] at hfresh
  rw [← hplace]
  exact ⟨by_contra fun hget => hfresh.2 (mem_names hget), _, rfl, hfresh.1⟩

lemma freshLocation_grows (hgrows : Grows fs fs') {dir : Path} {avoid : List String}
    (h : fs.freshLocation workingDir dir avoid = .ok l) :
    ∃ l', fs'.freshLocation workingDir dir avoid = .ok l' := by
  obtain ⟨t, htarget, hget, -⟩ := freshLocation_iff.mp h
  refine ⟨_, freshLocation_iff.mpr ⟨t, ?_, hgrows _ hget, rfl⟩⟩
  split_ifs at htarget ⊢
  · exact htarget
  · exact resolve_grows hgrows htarget

lemma rename_ok {source : Location} (h : fs.rename workingDir source p = .ok fs') :
    ∃ e parent name, fs.get? source = some e ∧ fs.resolve workingDir p = .ok (.entry parent name) ∧
      fs.get? (parent ++ [name]) ≠ some .directory ∧
      fs' = (fs.erase source).put (parent ++ [name]) e := by
  rw [rename] at h
  cases hget : fs.get? source with
  | none =>
    rw [hget] at h
    cases h
  | some e =>
    simp only [hget] at h
    cases hresolve : fs.resolve workingDir (withoutEndSlashes p) with
    | error kind =>
      rw [hresolve] at h
      cases h
    | ok t =>
      rw [hresolve] at h
      cases t with
      | directory l => cases h
      | entry parent name =>
        simp only [bind, Except.bind, ne_eq, ite_not] at h
        split at h
        · next hsame =>
          rw [hsame] at hresolve
          split at h
          · cases h
          · cases h
            exact ⟨e, parent, name, rfl, hresolve, ‹_›, rfl⟩
        · cases h

lemma erase_put (fs : FileSystem) (l : Location) (e : Entry) : (fs.put l e).erase l = fs.erase l := by
  simp [put, erase]

lemma put_put (fs : FileSystem) (l : Location) (e e' : Entry) : (fs.put l e).put l e' = fs.put l e' := by
  rw [put, erase_put, ← put]

lemma put_grows (h : fs.get? l = none) : Grows fs (fs.put l e) := by
  intro m hm
  rw [get?_put_ne, hm]
  rintro rfl
  rw [hm] at h
  cases h

lemma erase_new (hne : l ≠ []) (h : fs.get? l = none) : fs.erase l = fs := by
  rw [get?, if_neg hne, List.lookup_eq_none_iff] at h
  have hother : ∀ entry ∈ fs.entries, decide (entry.1 ≠ l) = true := by
    intro entry hentry
    exact decide_eq_true (bne_iff_ne.mp (h entry hentry)).symm
  rw [erase, List.filter_eq_self.mpr hother]

lemma erase_put_ne {m : Location} (h : m ≠ l) : (fs.put l e).erase m = (fs.erase m).put l e := by
  have hkept : (fs.put l e).erase m = ⟨(l, e) :: ((fs.erase l).erase m).entries⟩ := by
    simp [put, erase, h.symm]
  have hcomm : ((fs.erase l).erase m).entries = ((fs.erase m).erase l).entries := by
    simp only [erase, List.filter_filter, Bool.and_comm]
  rw [hkept, hcomm, ← put]

lemma rename_new (hne : l ≠ []) (hnew : fs.get? l = none)
    {content : List UInt8} {executable : Bool}
    (h : (fs.put l (.file content executable)).rename workingDir l p = .ok fs') :
    fs'.lookup workingDir p = .ok (spelled workingDir p, .file content executable) ∧
      ∀ m, m ≠ spelled workingDir p → fs'.get? m = fs.get? m := by
  obtain ⟨e, parent, name, hsource, hresolve, hfree, rfl⟩ := rename_ok h
  rw [get?_put_self hne, Option.some.injEq] at hsource
  subst hsource
  have hspelled : parent ++ [name] = spelled workingDir p := resolve_location hresolve
  have hsame : ∀ m, m ≠ parent ++ [name] →
      (((fs.put l (.file content executable)).erase l).put (parent ++ [name])
        (.file content executable)).get? m = fs.get? m := by
    intro m hm
    rw [get?_put_ne hm, erase_put, erase_new hne hnew]
  have hgrows : Grows (fs.put l (.file content executable))
      (((fs.put l (.file content executable)).erase l).put (parent ++ [name])
        (.file content executable)) := by
    intro m hm
    have hm' : m ≠ parent ++ [name] := by
      rintro rfl
      exact hfree hm
    rw [hsame m hm']
    by_cases hml : m = l
    · rw [hml, get?_put_self hne] at hm
      cases hm
    · rwa [get?_put_ne hml] at hm
  rw [← hspelled]
  exact ⟨lookup_ok.mpr ⟨_, resolve_grows hgrows hresolve, rfl, get?_put_self (by simp)⟩, hsame⟩

end

end AdocProse.FileSystem
