import AdocProse.Proofs.Text.Pieces
import AdocProse.System.FileSystem
import Mathlib.Tactic.SplitIfs

/-! A path leads only to the place that it spells, and it still leads there when directories are added to
the file system. -/

namespace AdocProse.FileSystem

section

variable {fs : FileSystem} {l m : Location} {e : Entry}

@[simp] lemma get?_nil (fs : FileSystem) : fs.get? [] = some .directory := rfl

lemma mem_entries (hne : l ≠ []) (h : fs.get? l = some e) : (l, e) ∈ fs.entries := by
  rw [get?, if_neg hne] at h
  obtain ⟨before, after, hentries, -⟩ := List.lookup_eq_some_iff.mp h
  rw [hentries]
  exact List.mem_append_right _ List.mem_cons_self

lemma lookup_filter (entries : List (Location × Entry)) (l m : Location) :
    (entries.filter fun e => e.1 ≠ l).lookup m = if m = l then none else entries.lookup m := by
  induction entries with
  | nil => simp
  | cons entry entries ih =>
    obtain ⟨k, e⟩ := entry
    by_cases hk : k = l
    · subst hk
      rw [List.filter_cons_of_neg (by simp), ih]
      split_ifs with hm
      · rfl
      · rw [List.lookup_cons, beq_eq_false_iff_ne.mpr hm]
    · rw [List.filter_cons_of_pos (by simpa using hk), List.lookup_cons, List.lookup_cons, ih]
      by_cases hm : m = k
      · subst hm
        simp only [beq_self_eq_true, if_neg hk]
      · rw [beq_eq_false_iff_ne.mpr hm]

lemma get?_erase_self (hne : l ≠ []) : (fs.erase l).get? l = none := by
  rw [get?, if_neg hne, erase, lookup_filter, if_pos rfl]

lemma get?_erase_ne (h : m ≠ l) : (fs.erase l).get? m = fs.get? m := by
  rw [get?, get?, erase, lookup_filter, if_neg h]

lemma get?_put_self (hne : l ≠ []) : (fs.put l e).get? l = some e := by
  rw [get?, if_neg hne, put, List.lookup_cons, beq_self_eq_true]

lemma get?_put_ne (h : m ≠ l) : (fs.put l e).get? m = fs.get? m := by
  have hrest : (fs.put l e).get? m = (fs.erase l).get? m := by
    rw [get?, get?, put, List.lookup_cons, beq_eq_false_iff_ne.mpr h]
  rw [hrest, get?_erase_ne h]

end

def toward (l : Location) (piece : List Char) : Location :=
  if Path.isIdle piece then l
  else if piece = ['.', '.'] then l.dropLast
  else l ++ [String.ofList piece]

def origin (workingDir : Location) (p : Path) : Location :=
  if p.isAbsolute then [] else workingDir

lemma spelled_eq (workingDir : Location) (p : Path) :
    spelled workingDir p = p.pieces.foldl toward (origin workingDir p) := rfl

lemma origin_eq {p q : Path} (h : q.isAbsolute = p.isAbsolute) (workingDir : Location) :
    origin workingDir q = origin workingDir p := by
  rw [origin, origin, h]

lemma toward_dots {piece : List Char} (h : isDots piece = false) (l : Location) :
    toward l piece = l ++ [String.ofList piece] := by
  simp only [isDots, Bool.or_eq_false_iff, beq_eq_false_iff_ne] at h
  rw [toward, h.1, if_neg (by simp), if_neg h.2]

/-- Every directory of the first file system is a directory of the second one. -/
def Grows (fs fs' : FileSystem) : Prop :=
  ∀ l, fs.get? l = some .directory → fs'.get? l = some .directory

lemma Grows.refl (fs : FileSystem) : Grows fs fs :=
  fun _ h => h

section

variable {fs fs' : FileSystem} {l l' : Location} {workingDir : Location} {p : Path} {e : Entry}

lemma enter_ok {piece : List Char} : fs.enter l piece = .ok l' ↔ l' = toward l piece ∧
    (isDots piece = false → Utf8.size (String.ofList piece) ≤ 255 ∧ fs.get? l' = some .directory) := by
  by_cases hidle : Path.isIdle piece = true
  · simp [enter, toward, isDots, hidle, eq_comm]
  · by_cases hup : piece = ['.', '.']
    · simp [enter, toward, isDots, hup, Path.isIdle, eq_comm]
    · have hdots : isDots piece = false := by simp [isDots, hidle, hup]
      simp only [enter, toward, hidle, hup, hdots, if_false, forall_const, Bool.false_eq_true]
      by_cases hlong : 255 < Utf8.size (String.ofList piece)
      · simp [hlong, Nat.not_le.mpr hlong]
      · have hshort : Utf8.size (String.ofList piece) ≤ 255 := Nat.le_of_not_lt hlong
        constructor
        · intro h
          split at h
          · contradiction
          · split at h
            · cases h
            · cases h
            · next hget =>
              cases h
              exact ⟨rfl, hshort, hget⟩
        · rintro ⟨rfl, -, hget⟩
          simp [hlong, hget]

lemma enter_grows (hgrows : Grows fs fs') {piece : List Char} (h : fs.enter l piece = .ok l') :
    fs'.enter l piece = .ok l' := by
  obtain ⟨hl, hdirectory⟩ := enter_ok.mp h
  exact enter_ok.mpr ⟨hl, fun hdots => ⟨(hdirectory hdots).1, hgrows l' (hdirectory hdots).2⟩⟩

lemma walk_toward {ps : List (List Char)} (h : fs.walk l ps = .ok l') : l' = ps.foldl toward l := by
  induction ps generalizing l with
  | nil =>
    cases h
    rfl
  | cons piece ps ih =>
    rw [walk] at h
    cases hpiece : fs.enter l piece with
    | error e =>
      rw [hpiece] at h
      cases h
    | ok next =>
      rw [hpiece] at h
      rw [List.foldl_cons, ← (enter_ok.mp hpiece).1]
      exact ih h

lemma walk_grows (hgrows : Grows fs fs') {ps : List (List Char)} (h : fs.walk l ps = .ok l') :
    fs'.walk l ps = .ok l' := by
  induction ps generalizing l with
  | nil => exact h
  | cons piece ps ih =>
    rw [walk] at h ⊢
    cases hpiece : fs.enter l piece with
    | error e =>
      rw [hpiece] at h
      cases h
    | ok next =>
      rw [hpiece] at h
      rw [enter_grows hgrows hpiece]
      exact ih h

/-- Whether the system takes a path at all. -/
def Allowed (p : Path) : Prop :=
  p.text.toList ≠ [] ∧ '\x00' ∉ p.text.toList ∧ Utf8.size p.text < 4096

lemma resolve_ok {t : Target} : fs.resolve workingDir p = .ok t ↔
    Allowed p ∧ ∃ last, p.pieces.getLast? = some last ∧
      ((isDots last = true ∧ ∃ l, fs.walk (origin workingDir p) p.pieces = .ok l ∧ .directory l = t) ∨
        (isDots last = false ∧ Utf8.size (String.ofList last) ≤ 255 ∧ ∃ parent,
          fs.walk (origin workingDir p) p.pieces.dropLast = .ok parent ∧
            .entry parent (String.ofList last) = t)) := by
  rw [resolve, Allowed, ← origin]
  by_cases hempty : p.text.toList = []
  · simp [hempty]
  by_cases hnul : '\x00' ∈ p.text.toList
  · simp [hempty, hnul]
  by_cases hlong : 4096 ≤ Utf8.size p.text
  · simp [hempty, hnul, hlong, Nat.not_lt.mpr hlong]
  rw [if_neg hempty, if_neg (by simpa using hnul), if_neg hlong, and_iff_right ⟨hempty, hnul, by omega⟩]
  cases p.pieces.getLast? with
  | none => simp
  | some last =>
    cases hdots : isDots last with
    | true =>
      cases hwalk : fs.walk (origin workingDir p) p.pieces <;>
        simp [bind, Except.bind, pure, Except.pure, hdots, hwalk]
    | false =>
      by_cases hname : 255 < Utf8.size (String.ofList last)
      · cases hwalk : fs.walk (origin workingDir p) p.pieces.dropLast <;>
          simp [bind, Except.bind, hdots, hwalk, hname, Nat.not_le.mpr hname]
      · cases hwalk : fs.walk (origin workingDir p) p.pieces.dropLast <;>
          simp [bind, Except.bind, hdots, hwalk, hname, Nat.not_lt.mp hname]

lemma resolve_location {t : Target} (h : fs.resolve workingDir p = .ok t) :
    t.location = spelled workingDir p := by
  obtain ⟨-, last, hlast, ⟨-, l, hwalk, rfl⟩ | ⟨hdots, -, parent, hwalk, rfl⟩⟩ := resolve_ok.mp h
  · exact walk_toward hwalk
  · obtain ⟨pieces, hpieces⟩ := List.getLast?_eq_some_iff.mp hlast
    rw [hpieces, List.dropLast_concat] at hwalk
    rw [Target.location, spelled_eq, hpieces, List.foldl_append, ← walk_toward hwalk, List.foldl_cons,
      List.foldl_nil, toward_dots hdots]

lemma resolve_grows (hgrows : Grows fs fs') {t : Target} (h : fs.resolve workingDir p = .ok t) :
    fs'.resolve workingDir p = .ok t := by
  obtain ⟨hallowed, last, hlast, ⟨hdots, l, hwalk, ht⟩ | ⟨hdots, hname, parent, hwalk, ht⟩⟩ :=
    resolve_ok.mp h
  · exact resolve_ok.mpr ⟨hallowed, last, hlast, .inl ⟨hdots, l, walk_grows hgrows hwalk, ht⟩⟩
  · exact resolve_ok.mpr
      ⟨hallowed, last, hlast, .inr ⟨hdots, hname, parent, walk_grows hgrows hwalk, ht⟩⟩

lemma lookup_ok : fs.lookup workingDir p = .ok (l, e) ↔
    ∃ t, fs.resolve workingDir p = .ok t ∧ t.location = l ∧ fs.get? l = some e := by
  rw [lookup]
  cases hresolve : fs.resolve workingDir p with
  | error kind => simp [bind, Except.bind]
  | ok t =>
    cases hget : fs.get? t.location with
    | none =>
      simp only [bind, Except.bind, hget, reduceCtorEq, Except.ok.injEq, exists_eq_left', false_iff]
      rintro ⟨rfl, h⟩
      rw [hget] at h
      cases h
    | some e' =>
      simp only [bind, Except.bind, hget, Except.ok.injEq, Prod.mk.injEq, exists_eq_left']
      constructor
      · rintro ⟨rfl, rfl⟩
        exact ⟨rfl, hget⟩
      · rintro ⟨rfl, h⟩
        rw [hget] at h
        exact ⟨rfl, Option.some.inj h⟩

lemma lookup_place (h : fs.lookup workingDir p = .ok (l, e)) :
    l = spelled workingDir p ∧ fs.get? (spelled workingDir p) = some e := by
  obtain ⟨t, hresolve, rfl, hget⟩ := lookup_ok.mp h
  rw [← resolve_location hresolve]
  exact ⟨rfl, hget⟩

lemma lookup_grows (hgrows : Grows fs fs') (h : fs.lookup workingDir p = .ok (l, e)) {e' : Entry}
    (hget : fs'.get? l = some e') : fs'.lookup workingDir p = .ok (l, e') := by
  obtain ⟨t, hresolve, hl, -⟩ := lookup_ok.mp h
  exact lookup_ok.mpr ⟨t, resolve_grows hgrows hresolve, hl, hget⟩

lemma isFile_iff : fs.isFile workingDir p = true ↔
    ∃ content executable, fs.lookup workingDir p =
      .ok (spelled workingDir p, .file content executable) := by
  rw [isFile]
  cases hlookup : fs.lookup workingDir p with
  | error kind => simp
  | ok found =>
    obtain ⟨l, e⟩ := found
    obtain ⟨rfl, -⟩ := lookup_place hlookup
    cases e <;> simp

lemma read_ok {content : List UInt8} : fs.read workingDir p = .ok content ↔
    ∃ executable, fs.lookup workingDir p = .ok (spelled workingDir p, .file content executable) := by
  rw [read]
  cases hlookup : fs.lookup workingDir p with
  | error kind => simp [bind, Except.bind]
  | ok found =>
    obtain ⟨l, e⟩ := found
    obtain ⟨rfl, -⟩ := lookup_place hlookup
    cases e <;> simp [bind, Except.bind]

lemma read_error {kind : IoKind} : fs.read workingDir p = .error kind ↔
    fs.lookup workingDir p = .error kind ∨
      kind = .isADirectory ∧ ∃ l, fs.lookup workingDir p = .ok (l, .directory) := by
  rw [read]
  cases hlookup : fs.lookup workingDir p with
  | error kind' => simp [bind, Except.bind]
  | ok found =>
    obtain ⟨l, e⟩ := found
    cases e <;> simp [bind, Except.bind, eq_comm]

lemma isFile_iff_read :
    fs.isFile workingDir p = true ↔ ∃ content, fs.read workingDir p = .ok content := by
  simp only [isFile_iff, read_ok]

lemma erase_grows (h : fs.get? l ≠ some .directory) : Grows fs (fs.erase l) ∧ Grows (fs.erase l) fs := by
  have hne : l ≠ [] := by
    rintro rfl
    exact h rfl
  refine ⟨fun m hm => ?_, fun m hm => ?_⟩
  · rw [get?_erase_ne, hm]
    rintro rfl
    exact h hm
  · rwa [get?_erase_ne] at hm
    rintro rfl
    rw [get?_erase_self hne] at hm
    cases hm

lemma read_erase (h : fs.get? l ≠ some .directory) {content : List UInt8} :
    (fs.erase l).read workingDir p = .ok content ↔
      fs.read workingDir p = .ok content ∧ spelled workingDir p ≠ l := by
  have hne : l ≠ [] := by
    rintro rfl
    exact h rfl
  simp only [read_ok]
  constructor
  · rintro ⟨executable, hlookup⟩
    have hget := (lookup_place hlookup).2
    have hother : spelled workingDir p ≠ l := by
      rintro hl
      rw [hl, get?_erase_self hne] at hget
      cases hget
    rw [get?_erase_ne hother] at hget
    exact ⟨⟨executable, lookup_grows (erase_grows h).2 hlookup hget⟩, hother⟩
  · rintro ⟨⟨executable, hlookup⟩, hother⟩
    have hget := (lookup_place hlookup).2
    rw [← get?_erase_ne hother] at hget
    exact ⟨executable, lookup_grows (erase_grows h).1 hlookup hget⟩

lemma isFile_erase (h : fs.get? l ≠ some .directory) : (fs.erase l).isFile workingDir p = true ↔
    fs.isFile workingDir p = true ∧ spelled workingDir p ≠ l := by
  simp only [isFile_iff_read, read_erase h, exists_and_right]

end

end AdocProse.FileSystem
