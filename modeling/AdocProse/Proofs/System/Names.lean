import AdocProse.Proofs.System.Ancestors
import AdocProse.Proofs.Text.Utf8

/-! A path joined to a name leads to that name in the directory that the path leads to. Where a path leads to
a directory, so do the paths above it. -/

namespace AdocProse

open FileSystem

structure IsName (name : String) : Prop where
  whole : '/' ∉ name.toList
  named : isDots name.toList = false
  printed : '\x00' ∉ name.toList
  short : Utf8.size name ≤ 255

namespace Path

variable {p q : Path} {name : String}

lemma isAbsolute_whole (h : '/' ∉ name.toList) : (Path.mk name).isAbsolute = false := by
  rw [Path.isAbsolute, beq_eq_false_iff_ne]
  intro hhead
  obtain ⟨cs, hcs⟩ := List.head?_eq_some_iff.mp hhead
  exact h (hcs ▸ List.mem_cons_self)

lemma join_cases (h : '/' ∉ name.toList) (p : Path) :
    (p.text.toList = [] ∧ (p.join name).text.toList = name.toList) ∨
    (∃ cs, p.text.toList = cs ++ ['/'] ∧ (p.join name).text.toList = cs ++ '/' :: name.toList) ∨
    (p.text.toList ≠ [] ∧ (p.join name).text.toList = p.text.toList ++ '/' :: name.toList) := by
  rw [join, isAbsolute_whole h]
  simp only [Bool.false_eq_true, if_false]
  by_cases hempty : p.text.toList = []
  · refine .inl ⟨hempty, ?_⟩
    rw [if_pos (.inl hempty), String.toList_append, hempty, List.nil_append]
  by_cases hslash : p.text.toList.getLast? = some '/'
  · obtain ⟨cs, hcs⟩ := List.getLast?_eq_some_iff.mp hslash
    refine .inr (.inl ⟨cs, hcs, ?_⟩)
    rw [if_pos (.inr hslash), String.toList_append, hcs, List.append_assoc, List.singleton_append]
  · refine .inr (.inr ⟨hempty, ?_⟩)
    rw [if_neg (by simp [hempty, hslash]), String.toList_append, String.toList_append, List.append_assoc]
    rfl

lemma pieces_join (h : '/' ∉ name.toList) (p : Path) : ∃ ps, (p.join name).pieces = ps ++ [name.toList] ∧
    (p.pieces = ps ∨ p.pieces = ps ++ [[]]) := by
  have hname := Pieces.split_whole h
  rcases join_cases h p with ⟨htext, hjoin⟩ | ⟨cs, htext, hjoin⟩ | ⟨-, hjoin⟩
  · exact ⟨[], by rw [pieces, hjoin, hname]; rfl, .inr (by rw [pieces, htext]; rfl)⟩
  · refine ⟨Pieces.split '/' cs, ?_, .inr ?_⟩
    · rw [pieces, hjoin, Pieces.split_append_separator, hname]
    · rw [pieces, htext, Pieces.split_append_separator]
      rfl
  · exact ⟨p.pieces, by rw [pieces, hjoin, Pieces.split_append_separator, hname]; rfl, .inl rfl⟩

lemma isAbsolute_join (h : '/' ∉ name.toList) (p : Path) : (p.join name).isAbsolute = p.isAbsolute := by
  rcases join_cases h p with ⟨htext, hjoin⟩ | ⟨cs, htext, hjoin⟩ | ⟨hne, hjoin⟩
  · have hjoined := isAbsolute_whole h
    rw [isAbsolute] at hjoined ⊢
    rw [hjoin, hjoined, isAbsolute, htext]
    rfl
  · rw [isAbsolute, isAbsolute, hjoin, htext]
    cases cs <;> rfl
  · obtain ⟨c, cs, htext⟩ := List.exists_cons_of_ne_nil hne
    rw [isAbsolute, isAbsolute, hjoin, htext]
    rfl

lemma size_join_le (p : Path) (name : String) :
    Utf8.size (p.join name).text ≤ Utf8.size p.text + 1 + Utf8.size name := by
  have hslash : Utf8.size "/" = 1 := by decide
  rw [join]
  split_ifs
  · exact Nat.le_add_left _ _
  · rw [Utf8.size_append]
    omega
  · rw [Utf8.size_append, Utf8.size_append]
    omega

lemma mem_text_join {c : Char} (h : c ∈ (p.join name).text.toList) :
    c ∈ p.text.toList ∨ c = '/' ∨ c ∈ name.toList := by
  rw [join] at h
  split_ifs at h
  · exact .inr (.inr h)
  · rw [String.toList_append, List.mem_append] at h
    exact h.imp_right .inr
  · rw [String.toList_append, String.toList_append, List.mem_append, List.mem_append] at h
    rcases h with (h | h) | h
    · exact .inl h
    · exact .inr (.inl (by simpa using h))
    · exact .inr (.inr h)

/-- A path that stays one that the system takes when a name is joined to it. -/
structure TakesNames (p : Path) (name : String) : Prop where
  printed : '\x00' ∉ p.text.toList
  short : Utf8.size p.text + 1 + Utf8.size name < 4096

lemma TakesNames.allowed (h : p.TakesNames name) (hname : IsName name) : Allowed (p.join name) := by
  refine ⟨?_, fun hnul => ?_, Nat.lt_of_le_of_lt (size_join_le p name) h.short⟩
  · obtain ⟨ps, hps, -⟩ := pieces_join hname.whole p
    intro htext
    rw [pieces, htext] at hps
    have hnil : name.toList = [] := by
      have hlast := congrArg List.getLast? hps
      simpa [Pieces.split] using hlast.symm
    have hnamed := hname.named
    rw [hnil] at hnamed
    cases hnamed
  · rcases mem_text_join hnul with hnul | hnul | hnul
    · exact h.printed hnul
    · cases hnul
    · exact hname.printed hnul

lemma text_of_parent (h : p.parent? = some q) : q.text.toList <+: p.text.toList := by
  have htext : p.text.toList = Pieces.join '/' p.pieces := (Pieces.join_split '/' p.text.toList).symm
  obtain ⟨first, rest, hp, ⟨-, -, rfl⟩ | ⟨kept, removed, name, rfl, hremoved, ⟨rfl, rfl, rfl⟩ | ⟨-, rfl⟩⟩⟩ :=
    parent?_cases h
  · exact List.nil_prefix
  · obtain ⟨next, removed, rfl⟩ := List.exists_cons_of_ne_nil (l := removed) (by rintro rfl; cases hremoved)
    rw [htext, hp]
    exact List.prefix_append ['/'] _
  · rw [htext, hp, ofPieces, String.toList_ofList, ← List.cons_append]
    exact Pieces.join_prefix '/' (List.cons_ne_nil first kept) removed

lemma TakesNames.parent (h : p.TakesNames name) (hparent : p.parent? = some q) : q.TakesNames name := by
  obtain ⟨rest, hrest⟩ := text_of_parent hparent
  have htext : p.text = q.text ++ String.ofList rest := by
    rw [← String.toList_inj, String.toList_append, String.toList_ofList, hrest]
  have hshort := h.short
  rw [htext, Utf8.size_append] at hshort
  refine ⟨fun hnul => h.printed ?_, by omega⟩
  rw [htext, String.toList_append]
  exact List.mem_append_left _ hnul

end Path

namespace FileSystem

variable {fs : FileSystem} {l l' : Location} {workingDir : Location} {p q : Path} {name : String}

lemma walk_append (fs : FileSystem) (l : Location) (ps qs : List (List Char)) :
    fs.walk l (ps ++ qs) = fs.walk l ps >>= fun m => fs.walk m qs := by
  induction ps generalizing l with
  | nil => rfl
  | cons piece ps ih =>
    rw [List.cons_append, walk, walk]
    cases fs.enter l piece with
    | error e => rfl
    | ok next => exact ih next

lemma walk_parent (hparent : p.parent? = some q) (h : fs.walk (origin workingDir p) p.pieces = .ok l) :
    ∃ m, fs.walk (origin workingDir q) q.pieces = .ok m := by
  obtain ⟨habsolute, kept, removed, idle, hp, hq, hidle, -⟩ := Path.parent?_pieces hparent
  rw [hp, walk_append] at h
  cases hkept : fs.walk (origin workingDir p) kept with
  | error e =>
    rw [hkept] at h
    cases h
  | ok m =>
    refine ⟨m, ?_⟩
    rw [origin_eq habsolute, hq, walk_append, hkept]
    exact walk_idle hidle m

lemma walk_of_isDirectory (h : fs.isDirectory workingDir p = true) :
    Allowed p ∧ ∃ l, fs.walk (origin workingDir p) p.pieces = .ok l := by
  have hlookup : ∃ l, fs.lookup workingDir p = .ok (l, .directory) := by
    rw [isDirectory] at h
    split at h
    · next l hl => exact ⟨l, hl⟩
    · cases h
  obtain ⟨l, hlookup⟩ := hlookup
  obtain ⟨t, hresolve, rfl, hdirectory⟩ := lookup_ok.mp hlookup
  obtain ⟨hallowed, last, hlast, ⟨hdots, l, hwalk, -⟩ | ⟨hdots, hname, parent, hwalk, rfl⟩⟩ :=
    resolve_ok.mp hresolve
  · exact ⟨hallowed, l, hwalk⟩
  · obtain ⟨pieces, hpieces⟩ := List.getLast?_eq_some_iff.mp hlast
    rw [hpieces, List.dropLast_concat] at hwalk
    refine ⟨hallowed, toward parent last, ?_⟩
    have henter : fs.enter parent last = .ok (toward parent last) := by
      rw [Target.location] at hdirectory
      exact enter_ok.mpr ⟨rfl, fun _ => ⟨hname, by rw [toward_dots hdots, hdirectory]⟩⟩
    rw [hpieces, walk_append, hwalk]
    simp only [bind, Except.bind, walk, henter]

lemma spelled_join (hname : IsName name) (workingDir : Location) (p : Path) :
    spelled workingDir (p.join name) = spelled workingDir p ++ [name] := by
  have horigin := origin_eq (Path.isAbsolute_join hname.whole p) workingDir
  obtain ⟨ps, hjoin, hp⟩ := Path.pieces_join hname.whole p
  rw [spelled_eq, spelled_eq, horigin, hjoin, List.foldl_append, List.foldl_cons, List.foldl_nil,
    toward_dots hname.named, String.ofList_toList]
  rcases hp with hp | hp <;> rw [hp]
  rw [List.foldl_append]
  rfl

lemma isName_of_resolve (hwhole : '/' ∉ name.toList) {parent : Location} {found : String}
    (h : fs.resolve workingDir (p.join name) = .ok (.entry parent found)) : IsName name := by
  obtain ⟨ps, hjoin, -⟩ := Path.pieces_join hwhole p
  obtain ⟨hallowed, last, hlast, ⟨-, l, -, ht⟩ | ⟨hdots, hshort, -⟩⟩ := resolve_ok.mp h
  · cases ht
  · rw [hjoin, List.getLast?_concat, Option.some.injEq] at hlast
    subst hlast
    refine ⟨hwhole, hdots, fun hnul => hallowed.2.1 ?_, by simpa using hshort⟩
    rcases Path.join_cases hwhole p with ⟨-, htext⟩ | ⟨cs, -, htext⟩ | ⟨-, htext⟩ <;> rw [htext] <;> simp [hnul]

lemma walk_inside (hstart : ∀ m, m <+: l → fs.get? m = some .directory) {ps : List (List Char)}
    (h : fs.walk l ps = .ok l') : ∀ m, m <+: l' → fs.get? m = some .directory := by
  induction ps generalizing l with
  | nil =>
    cases h
    exact hstart
  | cons piece ps ih =>
    rw [walk] at h
    cases hpiece : fs.enter l piece with
    | error e =>
      rw [hpiece] at h
      cases h
    | ok next =>
      rw [hpiece] at h
      refine ih (fun m hm => ?_) h
      obtain ⟨rfl, hname⟩ := enter_ok.mp hpiece
      cases hdots : isDots piece with
      | true =>
        -- A dot stays, and two dots go up.
        have hup : toward l piece <+: l := by
          rw [toward]
          split_ifs with hidle hparent
          · exact List.prefix_rfl
          · exact List.dropLast_prefix l
          · simp [isDots, hidle, hparent] at hdots
        exact hstart m (hm.trans hup)
      | false =>
        have hdirectory := (hname hdots).2
        rw [toward_dots hdots] at hm hdirectory
        rcases List.prefix_concat_iff.mp hm with rfl | hm
        · exact hdirectory
        · exact hstart m hm

/-- The working directory is a directory, in directories only. -/
def StandsIn (fs : FileSystem) (workingDir : Location) : Prop :=
  ∀ l, l <+: workingDir → fs.get? l = some .directory

lemma StandsIn.grows {fs' : FileSystem} (h : fs.StandsIn workingDir) (hgrows : Grows fs fs') :
    fs'.StandsIn workingDir :=
  fun l hl => hgrows l (h l hl)

lemma StandsIn.directory (h : fs.StandsIn workingDir) (hresolve : fs.resolve workingDir p = .ok (.directory l)) :
    fs.get? l = some .directory := by
  obtain ⟨-, last, -, ⟨-, l', hwalk, ht⟩ | ⟨-, -, parent, -, ht⟩⟩ := resolve_ok.mp hresolve
  · cases ht
    refine walk_inside (fun m hm => ?_) hwalk l List.prefix_rfl
    rw [origin] at hm
    split_ifs at hm
    · rw [List.prefix_nil.mp hm]
      rfl
    · exact h m hm
  · cases ht

lemma StandsIn.isName (h : fs.StandsIn workingDir) (hwhole : '/' ∉ name.toList)
    (hfile : fs.isFile workingDir (p.join name) = true) : IsName name := by
  obtain ⟨content, executable, hlookup⟩ := isFile_iff.mp hfile
  obtain ⟨t, hresolve, ht, hget⟩ := lookup_ok.mp hlookup
  cases t with
  | directory l =>
    rw [← ht, Target.location, h.directory hresolve] at hget
    cases hget
  | entry parent found => exact isName_of_resolve hwhole hresolve

def isFileAt (fs : FileSystem) (l : Location) : Bool :=
  match fs.get? l with
  | some (.file _ _) => true
  | _ => false

lemma isFileAt_iff : fs.isFileAt l = true ↔ ∃ content executable, fs.get? l = some (.file content executable) := by
  rw [isFileAt]
  cases fs.get? l with
  | none => simp
  | some e => cases e <;> simp

lemma isFile_join (hname : IsName name) (htakes : p.TakesNames name)
    (hwalk : fs.walk (origin workingDir p) p.pieces = .ok l) :
    fs.isFile workingDir (p.join name) = fs.isFileAt (spelled workingDir (p.join name)) := by
  obtain ⟨ps, hjoin, hp⟩ := Path.pieces_join hname.whole p
  have hps : fs.walk (origin workingDir p) ps = .ok l := by
    rcases hp with hp | hp
    · exact hp ▸ hwalk
    · rw [hp, walk_append] at hwalk
      cases hps : fs.walk (origin workingDir p) ps with
      | error e =>
        rw [hps] at hwalk
        cases hwalk
      | ok m =>
        have hidle : fs.walk m [[]] = .ok m := walk_idle rfl m
        rw [hps] at hwalk
        exact hidle.symm.trans hwalk
  have hresolve : fs.resolve workingDir (p.join name) = .ok (.entry l name) := by
    refine resolve_ok.mpr ⟨htakes.allowed hname, name.toList, by rw [hjoin, List.getLast?_concat], .inr
      ⟨hname.named, by simpa using hname.short, l, ?_, by rw [String.ofList_toList]⟩⟩
    rw [origin_eq (Path.isAbsolute_join hname.whole p), hjoin, List.dropLast_concat, hps]
  rw [← resolve_location hresolve, isFile, lookup, isFileAt]
  simp only [hresolve, bind, Except.bind]
  cases fs.get? (Target.entry l name).location with
  | none => rfl
  | some e => cases e <;> rfl

end FileSystem

end AdocProse
