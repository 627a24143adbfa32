import AdocProse.Proofs.System.FileSystem
import Mathlib.Data.List.DropRight

/-! A path without `..` goes down from where it starts by the names between its slashes, and its parent by all of
them but the last one. If everything lies in a directory, it leads to whatever is at the place that it
spells. -/

namespace AdocProse.Path

open FileSystem

def named (ps : List (List Char)) : List (List Char) :=
  ps.filter fun piece => !isIdle piece

lemma foldl_toward_down {ps : List (List Char)} (h : ['.', '.'] ∉ ps) (l : Location) :
    ps.foldl toward l = l ++ (named ps).map String.ofList := by
  induction ps generalizing l with
  | nil => simp [named]
  | cons piece ps ih =>
    rw [List.mem_cons, not_or] at h
    rw [List.foldl_cons, ih h.2, toward, if_neg (Ne.symm h.1)]
    cases hidle : isIdle piece <;> simp [named, hidle]

lemma spelled_down {p : Path} (hdown : ['.', '.'] ∉ p.pieces) (workingDir : Location) :
    spelled workingDir p = origin workingDir p ++ (named p.pieces).map String.ofList := by
  rw [spelled_eq, foldl_toward_down hdown]

lemma named_append (ps qs : List (List Char)) : named (ps ++ qs) = named ps ++ named qs :=
  List.filter_append ps qs

lemma pieces_ofPieces {ps : List (List Char)} (hne : ps ≠ []) (h : ∀ piece ∈ ps, '/' ∉ piece) :
    (ofPieces ps).pieces = ps := by
  rw [pieces, ofPieces, String.toList_ofList, Pieces.split_join hne h]

lemma pieces_ofPieces_append {p : Path} {ps qs : List (List Char)} (hp : p.pieces = ps ++ qs) (hne : ps ≠ []) :
    (ofPieces ps).pieces = ps :=
  pieces_ofPieces hne fun _ hpiece =>
    Pieces.separator_notMem (hp.symm ▸ List.mem_append_left qs hpiece : _ ∈ p.pieces)

lemma isAbsolute_iff {p : Path} {first : List Char} {rest : List (List Char)} (h : p.pieces = first :: rest) :
    p.isAbsolute = true ↔ first = [] ∧ rest ≠ [] := by
  rw [pieces] at h
  rw [isAbsolute, beq_iff_eq]
  cases htext : p.text.toList with
  | nil =>
    rw [htext] at h
    cases h
    simp
  | cons c cs =>
    obtain ⟨piece, pieces, hcs⟩ := List.exists_cons_of_ne_nil (Pieces.split_ne_nil '/' cs)
    rw [htext] at h
    by_cases hc : c = '/'
    · rw [hc, Pieces.split_separator, hcs, List.cons.injEq] at h
      obtain ⟨rfl, rfl⟩ := h
      simp [hc]
    · rw [Pieces.split_other hc hcs, List.cons.injEq] at h
      obtain ⟨rfl, rfl⟩ := h
      simp [hc]

lemma dropIdleEnd_eq (ps : List (List Char)) : dropIdleEnd ps = ps.rdropWhile isIdle := rfl

lemma dropIdleEnd_append (ps : List (List Char)) : ∃ idle, ps = dropIdleEnd ps ++ idle ∧ named idle = [] := by
  rw [dropIdleEnd_eq]
  induction ps using List.reverseRecOn with
  | nil => exact ⟨[], rfl, rfl⟩
  | append_singleton ps piece ih =>
    by_cases hidle : isIdle piece = true
    · obtain ⟨idle, hps, hnamed⟩ := ih
      refine ⟨idle ++ [piece], ?_, ?_⟩
      · rw [List.rdropWhile_concat_pos _ _ _ hidle, ← List.append_assoc, ← hps]
      · rw [named_append, hnamed]
        simp [named, hidle]
    · rw [List.rdropWhile_concat_neg _ _ _ hidle]
      exact ⟨[], (List.append_nil _).symm, rfl⟩

/-- What the parent of a path leaves out is one name, with what names nothing around it. -/
lemma exists_removed (ps : List (List Char)) (h : dropIdleEnd ps ≠ []) : ∃ removed name,
    ps = dropIdleEnd (dropIdleEnd ps).dropLast ++ removed ∧ named removed = [name] := by
  obtain ⟨idle, hps, hidle⟩ := dropIdleEnd_append ps
  obtain ⟨idle', hkept, hidle'⟩ := dropIdleEnd_append (dropIdleEnd ps).dropLast
  have hlast : isIdle ((dropIdleEnd ps).getLast h) = false :=
    Bool.not_eq_true _ ▸ List.rdropWhile_last_not isIdle ps h
  refine ⟨idle' ++ [(dropIdleEnd ps).getLast h] ++ idle, (dropIdleEnd ps).getLast h, ?_, ?_⟩
  · conv_lhs => rw [hps, ← List.dropLast_append_getLast h, hkept]
    simp only [List.append_assoc]
  · rw [named_append, named_append, hidle, hidle']
    simp [named, hlast]

lemma named_of_idle {ps : List (List Char)} (h : dropIdleEnd ps = []) : named ps = [] := by
  obtain ⟨idle, hps, hidle⟩ := dropIdleEnd_append ps
  rw [h, List.nil_append] at hps
  rwa [hps]

lemma exists_pieces (p : Path) : ∃ first rest, p.pieces = first :: rest :=
  List.exists_cons_of_ne_nil (Pieces.split_ne_nil '/' p.text.toList)

lemma parent?_of_idle {p : Path} {first : List Char} {rest : List (List Char)} (hp : p.pieces = first :: rest)
    (hrest : dropIdleEnd rest = []) : p.parent? = if first = [] then none else some ⟨""⟩ := by
  simp only [parent?, hp, hrest]

lemma parent?_cases {p q : Path} (h : p.parent? = some q) : ∃ first rest, p.pieces = first :: rest ∧
    (first ≠ [] ∧ named rest = [] ∧ q = ⟨""⟩ ∨
      ∃ kept removed name, rest = kept ++ removed ∧ named removed = [name] ∧
        (first = [] ∧ kept = [] ∧ q = ⟨"/"⟩ ∨ (first = [] → kept ≠ []) ∧ q = ofPieces (first :: kept))) := by
  obtain ⟨first, rest, hp⟩ := exists_pieces p
  refine ⟨first, rest, hp, ?_⟩
  cases hrest : dropIdleEnd rest with
  | nil =>
    rw [parent?_of_idle hp hrest] at h
    split_ifs at h with hfirst
    cases h
    exact .inl ⟨hfirst, named_of_idle hrest, rfl⟩
  | cons r rs =>
    obtain ⟨removed, name, hsplit, hremoved⟩ := exists_removed rest (by simp [hrest])
    rw [hrest] at hsplit
    simp only [parent?, hp, hrest] at h
    refine .inr ⟨_, removed, name, hsplit, hremoved, ?_⟩
    cases hkept : dropIdleEnd (r :: rs).dropLast with
    | nil =>
      simp only [hkept] at h
      split_ifs at h with hfirst <;> cases h
      · exact .inl ⟨hfirst, rfl, rfl⟩
      · exact .inr ⟨fun h => absurd h hfirst, rfl⟩
    | cons k ks =>
      simp only [hkept, Option.some.injEq] at h
      exact .inr ⟨by simp, h.symm⟩

lemma parent?_pieces {p q : Path} (h : p.parent? = some q) : q.isAbsolute = p.isAbsolute ∧
    ∃ kept removed idle, p.pieces = kept ++ removed ∧ q.pieces = kept ++ idle ∧ named idle = [] ∧
      named kept = (named p.pieces).dropLast := by
  obtain ⟨first, rest, hp, ⟨hfirst, hrest, rfl⟩ | ⟨kept, removed, name, rfl, hremoved, hq⟩⟩ := parent?_cases h
  · refine ⟨?_, [], first :: rest, [[]], hp, rfl, rfl, ?_⟩
    · rw [Bool.eq_iff_iff, isAbsolute_iff hp]
      simp [hfirst, isAbsolute]
    · rw [hp, ← List.singleton_append, named_append, hrest]
      cases hidle : isIdle first <;> simp [named, hidle]
  · have hne : removed ≠ [] := by
      rintro rfl
      cases hremoved
    have hnamed : named (first :: kept) = (named p.pieces).dropLast := by
      rw [hp, ← List.cons_append, named_append, hremoved, List.dropLast_concat]
    rcases hq with ⟨rfl, rfl, rfl⟩ | ⟨hkept, rfl⟩
    · refine ⟨?_, [[]], removed, [[]], hp, rfl, rfl, hnamed⟩
      rw [Bool.eq_iff_iff, isAbsolute_iff hp]
      simp [hne, isAbsolute]
    · have hq := pieces_ofPieces_append hp (List.cons_ne_nil first kept)
      refine ⟨?_, first :: kept, removed, [], hp, by rw [hq, List.append_nil], rfl, hnamed⟩
      rw [Bool.eq_iff_iff, isAbsolute_iff hp, isAbsolute_iff hq]
      exact and_congr_right fun hfirst => by simp [hkept hfirst, hne]

lemma named_of_top {p : Path} (h : p.parent? = none) : named p.pieces = [] := by
  obtain ⟨first, rest, hp⟩ := exists_pieces p
  cases hrest : dropIdleEnd rest with
  | nil =>
    rw [parent?_of_idle hp hrest] at h
    split_ifs at h with hfirst
    rw [hp, hfirst, ← List.singleton_append, named_append, named_of_idle hrest]
    rfl
  | cons r rs =>
    simp only [parent?, hp, hrest] at h
    split at h
    · split_ifs at h
    · cases h

lemma named_parent {p q : Path} (h : p.parent? = some q) : named q.pieces = (named p.pieces).dropLast := by
  obtain ⟨-, kept, removed, idle, -, hq, hidle, hnamed⟩ := parent?_pieces h
  rw [hq, named_append, hidle, List.append_nil, hnamed]

lemma down_parent {p q : Path} (h : p.parent? = some q) (hdown : ['.', '.'] ∉ p.pieces) :
    ['.', '.'] ∉ q.pieces := by
  intro hmem
  have hnamed : ['.', '.'] ∈ named q.pieces := List.mem_filter.mpr ⟨hmem, rfl⟩
  rw [named_parent h] at hnamed
  exact hdown (List.mem_filter.mp (List.dropLast_subset _ hnamed)).1

lemma spelled_parent {p q : Path} (hdown : ['.', '.'] ∉ p.pieces) (h : p.parent? = some q)
    (workingDir : Location) :
    spelled workingDir q = origin workingDir p ++ (named p.pieces).dropLast.map String.ofList := by
  rw [spelled_down (down_parent h hdown), origin_eq (parent?_pieces h).1, named_parent h]

end AdocProse.Path

namespace AdocProse.FileSystem

/-- Everything lies in a directory. -/
def Closed (fs : FileSystem) : Prop :=
  ∀ l, fs.get? l ≠ none → fs.get? l.dropLast = some .directory

section

variable {fs fs' : FileSystem} {l l' m : Location} {workingDir : Location} {p : Path}
  {ps : List (List Char)}

lemma closed_of_entries (h : ∀ entry ∈ fs.entries, fs.get? entry.1.dropLast = some .directory) :
    fs.Closed := by
  intro l hl
  by_cases hroot : l = []
  · rw [hroot]
    rfl
  · obtain ⟨e, he⟩ := Option.ne_none_iff_exists'.mp hl
    exact h _ (mem_entries hroot he)

lemma Closed.directory_above (hclosed : fs.Closed) (h : m <+: l) (hl : fs.get? l = some .directory) :
    fs.get? m = some .directory := by
  induction l using List.reverseRecOn with
  | nil =>
    rw [List.prefix_nil.mp h]
    rfl
  | append_singleton l name ih =>
    rcases List.prefix_concat_iff.mp h with rfl | h
    · exact hl
    · have habove := hclosed (l ++ [name]) (by simp [hl])
      rw [List.dropLast_concat] at habove
      exact ih h habove

lemma walk_directory (hdown : ['.', '.'] ∉ ps) (h : fs.walk l ps = .ok l') :
    l' = l ∨ fs.get? l' = some .directory := by
  induction ps generalizing l with
  | nil =>
    cases h
    exact .inl rfl
  | cons piece ps ih =>
    rw [List.mem_cons, not_or] at hdown
    rw [walk] at h
    cases hpiece : fs.enter l piece with
    | error e =>
      rw [hpiece] at h
      cases h
    | ok next =>
      rw [hpiece] at h
      obtain ⟨rfl, hdirectory⟩ := enter_ok.mp hpiece
      by_cases hidle : Path.isIdle piece = true
      · rw [toward, if_pos hidle] at h
        exact ih hdown.2 h
      · have hnext := (hdirectory (by simpa [isDots, hidle] using Ne.symm hdown.1)).2
        exact .inr ((ih hdown.2 h).elim (fun hsame => hsame ▸ hnext) id)

lemma walk_idle {idle : List (List Char)} (h : Path.named idle = []) (l : Location) : fs.walk l idle = .ok l := by
  induction idle with
  | nil => rfl
  | cons piece idle ih =>
    have hpieces := List.filter_eq_nil_iff.mp h
    rw [List.forall_mem_cons] at hpieces
    have henter : fs.enter l piece = .ok l := by rw [enter, if_pos (by simpa using hpieces.1)]
    rw [walk, henter]
    exact ih (List.filter_eq_nil_iff.mpr hpieces.2)

lemma Closed.walk (hclosed : fs.Closed) (hdown : ['.', '.'] ∉ ps) (h : fs'.walk l ps = .ok l')
    (hl' : fs.get? l' = some .directory) : fs.walk l ps = .ok l' := by
  induction ps generalizing l with
  | nil => exact h
  | cons piece ps ih =>
    rw [List.mem_cons, not_or] at hdown
    rw [FileSystem.walk] at h ⊢
    cases hpiece : fs'.enter l piece with
    | error e =>
      rw [hpiece] at h
      cases h
    | ok next =>
      rw [hpiece] at h
      obtain ⟨hnext, hname⟩ := enter_ok.mp hpiece
      have hprefix : next <+: l' := by
        rw [walk_toward h, Path.foldl_toward_down hdown.2]
        exact List.prefix_append next _
      have henter : fs.enter l piece = .ok next :=
        enter_ok.mpr ⟨hnext, fun hdots => ⟨(hname hdots).1, hclosed.directory_above hprefix hl'⟩⟩
      rw [henter]
      exact ih hdown.2 h

lemma Closed.lookup (hclosed : fs.Closed) (hdown : ['.', '.'] ∉ p.pieces) {e : Entry}
    (h : fs'.lookup workingDir p = .ok (l, e)) (hl : fs.get? l = some e) :
    fs.lookup workingDir p = .ok (l, e) := by
  obtain ⟨t, hresolve, rfl, hfound⟩ := lookup_ok.mp h
  refine lookup_ok.mpr ⟨t, ?_, rfl, hl⟩
  obtain ⟨hallowed, last, hlast, ⟨hdots, l, hwalk, rfl⟩ | ⟨hdots, hname, parent, hwalk, rfl⟩⟩ :=
    resolve_ok.mp hresolve
  · refine resolve_ok.mpr ⟨hallowed, last, hlast, .inl ⟨hdots, l, ?_, rfl⟩⟩
    rcases walk_directory hdown hwalk with rfl | hdirectory
    · -- The path does not leave the place where it starts.
      have hnames := walk_toward hwalk
      rw [Path.foldl_toward_down hdown, List.self_eq_append_right, List.map_eq_nil_iff] at hnames
      exact walk_idle hnames _
    · rw [Target.location] at hfound hl
      rw [hdirectory, Option.some.injEq] at hfound
      subst hfound
      exact hclosed.walk hdown hwalk hl
  · rw [Target.location] at hl
    have hparent := hclosed (parent ++ [String.ofList last]) (by simp [hl])
    rw [List.dropLast_concat] at hparent
    have hrest : ['.', '.'] ∉ p.pieces.dropLast := fun hmem => hdown (List.dropLast_subset _ hmem)
    exact resolve_ok.mpr
      ⟨hallowed, last, hlast, .inr ⟨hdots, hname, parent, hclosed.walk hrest hwalk hparent, rfl⟩⟩

end

end AdocProse.FileSystem
