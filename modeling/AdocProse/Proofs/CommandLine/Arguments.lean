import AdocProse.CommandLine.Arguments
import Mathlib.Data.List.TakeDrop
import Mathlib.Tactic.Lemma
import Mathlib.Tactic.SplitIfs

/-! The command lines that run a command, as a grammar. What is read as such a run is what the grammar has. -/

namespace AdocProse.CommandLine

def Command.name : Command → String
  | .ast => "ast"
  | .check => "check"

def IsPlain (s : String) : Prop :=
  s ≠ "" ∧ (s = "-" ∨ s.toList.head? ≠ some '-')

inductive Configures : List String → Path → Prop
  | apart {value : String} (h : IsPlain value) : Configures ["--config", value] ⟨value⟩
  | joined {value : String} (h : value ≠ "") : Configures ["--config=" ++ value] ⟨value⟩

/-- The words behind a command, where a configuration or the file may have stood before them. With the words the file
is `f` and the configuration `inner`. -/
inductive Behind : Option Path → Option Path → List String → Path → Option Path → Prop
  | nothing {f : Path} {inner : Option Path} : Behind inner (some f) [] f inner
  | ended {f : Path} {inner : Option Path} : Behind inner (some f) ["--"] f inner
  | marked {s : String} {inner : Option Path} (h : s ≠ "") : Behind inner none ["--", s] ⟨s⟩ inner
  | file {s : String} {words : List String} {f : Path} {config inner : Option Path} (h : IsPlain s)
      (hrest : Behind config (some ⟨s⟩) words f inner) : Behind config none (s :: words) f inner
  | config {option words : List String} {path f : Path} {file inner : Option Path} (h : Configures option path)
      (hrest : Behind (some path) file words f inner) : Behind none file (option ++ words) f inner

/-- A command with its file. A configuration behind the command is taken before one in front of it. -/
inductive Line : List String → Command → Path → Option Path → Prop
  | plain {words : List String} {command : Command} {f : Path} {inner : Option Path}
      (h : Behind none none words f inner) : Line (command.name :: words) command f inner
  | configured {option words : List String} {command : Command} {path f : Path} {inner : Option Path}
      (hoption : Configures option path) (h : Behind none none words f inner) :
      Line (option ++ command.name :: words) command f (inner.or (some path))

lemma readFile_zero {command : Command} {outer config file : Option Path} {words : List String} :
    readFile command outer 0 config file words = none := by
  simp only [readFile]

lemma readWords_nil {fuel : Nat} {config : Option Path} : readWords (fuel + 1) config [] = none := by
  simp only [readWords]

lemma ofName?_eq {name : String} {command : Command} : Command.ofName? name = some command ↔ name = command.name := by
  rw [Command.ofName?]
  split_ifs with hast hcheck <;> cases command <;> simp_all [Command.name]

namespace Word

variable {s : String} {name cs : List Char} {value : Option String}

lemma long_config {value' : Option String} (h : long name value = .config value') :
    name = "config".toList ∧ value' = value := by
  rw [long] at h
  split_ifs at h with hname
  cases h
  exact ⟨hname, rfl⟩

lemma long_option (name : List Char) (value : Option String) :
    long name value ≠ .endOfOptions ∧ ∀ s, long name value ≠ .plain s := by
  rw [long]
  split_ifs <;> simp

lemma span_append {rest : List Char} (h : cs.span (· != '=') = (name, rest)) :
    cs = name ++ rest ∧ ∀ mark behind, rest = mark :: behind → mark = '=' := by
  rw [List.span_eq_takeWhile_dropWhile, Prod.mk.injEq] at h
  obtain ⟨rfl, rfl⟩ := h
  refine ⟨List.takeWhile_append_dropWhile.symm, fun mark behind hrest => ?_⟩
  have hmark := List.head?_dropWhile_not (· != '=') cs
  simpa [hrest] using hmark

lemma ofString_cases (s : String) :
    (s.toList = ['-', '-'] ∧ ofString s = .endOfOptions) ∨
    (∃ name, s.toList = '-' :: '-' :: name ∧ ofString s = long name none) ∨
    (∃ name v, s.toList = '-' :: '-' :: (name ++ '=' :: v) ∧ ofString s = long name (some (String.ofList v))) ∨
    (∃ c cs, s.toList = '-' :: c :: cs ∧ (ofString s = .version ∨ ofString s = .help ∨ ofString s = .unknown)) ∨
    ((s = "-" ∨ s.toList.head? ≠ some '-') ∧ ofString s = .plain s) := by
  rw [ofString]
  split
  · next hs => exact .inl ⟨hs, rfl⟩
  · next cs _ hs =>
    split
    · next name hspan =>
      obtain ⟨rfl, -⟩ := span_append hspan
      exact .inr (.inl ⟨name, by simpa using hs, rfl⟩)
    · next name mark v hspan =>
      obtain ⟨rfl, hmark⟩ := span_append hspan
      obtain rfl := hmark _ _ rfl
      exact .inr (.inr (.inl ⟨name, v, hs, rfl⟩))
  · next c cs _ _ hs =>
    refine .inr (.inr (.inr (.inl ⟨c, cs, hs, ?_⟩)))
    split_ifs <;> simp
  · next hdash =>
    refine .inr (.inr (.inr (.inr ⟨?_, rfl⟩)))
    rcases hs : s.toList with _ | ⟨c, _ | ⟨d, ds⟩⟩
    · exact .inr (by simp)
    · by_cases hc : c = '-'
      · exact .inl (String.toList_inj.mp (by rw [hs, hc]; rfl))
      · exact .inr (by simpa using hc)
    · exact .inr fun hc => hdash d ds (by rw [hs, Option.some.inj hc])

lemma ofString_config (h : ofString s = .config value) :
    (value = none ∧ s = "--config") ∨ ∃ v, value = some v ∧ s = "--config=" ++ v := by
  rcases ofString_cases s with ⟨-, hs⟩ | ⟨name, htext, hs⟩ | ⟨name, v, htext, hs⟩ | ⟨c, cs, -, hs⟩ | ⟨-, hs⟩
  · simp [hs] at h
  · obtain ⟨rfl, rfl⟩ := long_config (hs.symm.trans h)
    exact .inl ⟨rfl, String.toList_inj.mp htext⟩
  · obtain ⟨rfl, rfl⟩ := long_config (hs.symm.trans h)
    refine .inr ⟨_, rfl, String.toList_inj.mp ?_⟩
    have hmark : "--config=".toList = '-' :: '-' :: ("config".toList ++ ['=']) := by decide
    rw [htext, String.toList_append, String.toList_ofList, hmark]
    simp
  · rcases hs with hs | hs | hs <;> simp [hs] at h
  · simp [hs] at h

lemma ofString_joined (v : String) : ofString ("--config=" ++ v) = .config (some v) := by
  have hmark : "--config=".toList = ['-', '-', 'c', 'o', 'n', 'f', 'i', 'g', '='] := by decide
  rw [ofString, String.toList_append, hmark]
  change long "config".toList (some (String.ofList v.toList)) = _
  rw [long, if_pos rfl, String.ofList_toList]

lemma ofString_plain {t : String} : ofString s = .plain t ↔ t = s ∧ (s = "-" ∨ s.toList.head? ≠ some '-') := by
  rcases ofString_cases s with
    ⟨htext, hs⟩ | ⟨name, htext, hs⟩ | ⟨name, v, htext, hs⟩ | ⟨c, cs, htext, hs⟩ | ⟨hshape, hs⟩
  · simp [hs, htext, ← String.toList_inj]
  · simp [hs, htext, ← String.toList_inj, (long_option _ _).2]
  · simp [hs, htext, ← String.toList_inj, (long_option _ _).2]
  · rcases hs with hs | hs | hs <;> simp [hs, htext, ← String.toList_inj]
  · rw [hs, Word.plain.injEq, eq_comm, and_iff_left hshape]

lemma ofString_end (h : ofString s = .endOfOptions) : s = "--" := by
  rcases ofString_cases s with ⟨htext, -⟩ | ⟨name, -, hs⟩ | ⟨name, v, -, hs⟩ | ⟨c, cs, -, hs⟩ | ⟨-, hs⟩
  · exact String.toList_inj.mp htext
  · exact absurd (hs.symm.trans h) (long_option _ _).1
  · exact absurd (hs.symm.trans h) (long_option _ _).1
  · rcases hs with hs | hs | hs <;> simp [hs] at h
  · simp [hs] at h

end Word

section

variable {word : String} {words rest option : List String} {value : Option String} {path f : Path}
  {config file inner outer : Option Path} {command : Command} {fuel : Nat}

lemma IsPlain.read {s : String} (h : IsPlain s) : Word.ofString s = .plain s :=
  Word.ofString_plain.mpr ⟨rfl, h.2⟩

lemma configures_read (hword : Word.ofString word = .config value)
    (h : optionValue value words = some (path, rest)) :
    ∃ option, Configures option path ∧ word :: words = option ++ rest := by
  rcases Word.ofString_config hword with ⟨rfl, rfl⟩ | ⟨v, rfl, rfl⟩
  · cases words with
    | nil => cases h
    | cons next words =>
      rw [optionValue] at h
      split at h
      · next v hplain =>
        obtain ⟨rfl, hshape⟩ := Word.ofString_plain.mp hplain
        split_ifs at h with hne
        cases h
        exact ⟨_, .apart ⟨hne, hshape⟩, rfl⟩
      · cases h
  · rw [optionValue] at h
    split_ifs at h with hne
    cases h
    exact ⟨_, .joined hne, rfl⟩

lemma Configures.read (h : Configures option path) (rest : List String) :
    ∃ word words value, option ++ rest = word :: words ∧ Word.ofString word = .config value ∧
      optionValue value words = some (path, rest) := by
  cases h with
  | @apart v h =>
    refine ⟨_, v :: rest, none, rfl, by decide, ?_⟩
    simp only [optionValue, h.read, if_neg h.1]
  | @joined v h =>
    refine ⟨_, rest, some v, rfl, Word.ofString_joined v, ?_⟩
    simp only [optionValue, if_neg h]

lemma Configures.length_pos (h : Configures option path) : 0 < option.length := by
  cases h <;> simp

lemma readFile_plain {s : String} (h : Word.ofString word = .plain s) :
    readFile command outer (fuel + 1) config file (word :: words) =
      if s = "" ∨ file.isSome then none else readFile command outer fuel config (some ⟨s⟩) words := by
  rcases words with _ | ⟨_, _ | ⟨_, _⟩⟩ <;> simp only [readFile, h]

lemma readFile_config (h : Word.ofString word = .config value) (hoption : optionValue value words = some (path, rest)) :
    readFile command outer (fuel + 1) config file (word :: words) =
      if config.isSome then none else readFile command outer fuel (some path) file rest := by
  rcases words with _ | ⟨_, _ | ⟨_, _⟩⟩ <;> simp only [readFile, h, hoption]

lemma readFile_valueless (h : Word.ofString word = .config value) (hoption : optionValue value words = none) :
    readFile command outer (fuel + 1) config file (word :: words) = none := by
  rcases words with _ | ⟨_, _ | ⟨_, _⟩⟩ <;> simp only [readFile, h, hoption]

lemma readFile_end {command' : Command} {g : Option Path}
    (h : readFile command outer fuel config file [] = some (.run command' f g)) :
    command' = command ∧ file = some f ∧ g = config.or outer := by
  cases fuel with
  | zero => simp [readFile_zero] at h
  | succ fuel =>
    cases file with
    | none => simp [readFile] at h
    | some file =>
      simp only [readFile, Option.some.injEq, Invocation.run.injEq] at h
      exact ⟨h.1.symm, by rw [h.2.1], h.2.2.symm⟩

lemma readFile_marked {command' : Command} {g : Option Path}
    (h : readFile command outer (fuel + 1) config file ("--" :: words) = some (.run command' f g)) :
    command' = command ∧ ∃ inner, Behind config file ("--" :: words) f inner ∧ g = inner.or outer := by
  have hword : Word.ofString "--" = .endOfOptions := rfl
  rcases words with _ | ⟨s, _ | ⟨_, _⟩⟩
  · simp only [readFile, hword] at h
    obtain ⟨rfl, rfl, rfl⟩ := readFile_end h
    exact ⟨rfl, config, .ended, rfl⟩
  · simp only [readFile, hword] at h
    split_ifs at h with hrefused
    obtain ⟨hne, hfile⟩ := not_or.mp hrefused
    obtain rfl : file = none := by simpa using hfile
    obtain ⟨rfl, hf, rfl⟩ := readFile_end h
    cases hf
    exact ⟨rfl, config, .marked hne, rfl⟩
  · simp [readFile, hword] at h

lemma readFile_sound {command' : Command} {g : Option Path}
    (h : readFile command outer fuel config file words = some (.run command' f g)) :
    command' = command ∧ ∃ inner, Behind config file words f inner ∧ g = inner.or outer := by
  induction fuel generalizing config file words with
  | zero => simp [readFile_zero] at h
  | succ fuel ih =>
    cases words with
    | nil =>
      obtain ⟨rfl, rfl, rfl⟩ := readFile_end h
      exact ⟨rfl, config, .nothing, rfl⟩
    | cons word words =>
      cases hword : Word.ofString word with
      | plain s =>
        obtain ⟨rfl, hshape⟩ := Word.ofString_plain.mp hword
        rw [readFile_plain hword] at h
        split_ifs at h with hrefused
        obtain ⟨hne, hfile⟩ := not_or.mp hrefused
        obtain rfl : file = none := by simpa using hfile
        obtain ⟨rfl, inner, hbehind, rfl⟩ := ih h
        exact ⟨rfl, inner, .file ⟨hne, hshape⟩ hbehind, rfl⟩
      | config value =>
        cases hoption : optionValue value words with
        | none => simp [readFile_valueless hword hoption] at h
        | some read =>
          obtain ⟨path, rest⟩ := read
          rw [readFile_config hword hoption] at h
          split_ifs at h with hconfig
          obtain rfl : config = none := by simpa using hconfig
          obtain ⟨option, hconfigures, hwords⟩ := configures_read hword hoption
          obtain ⟨rfl, inner, hbehind, rfl⟩ := ih h
          rw [hwords]
          exact ⟨rfl, inner, .config hconfigures hbehind, rfl⟩
      | endOfOptions =>
        obtain rfl := Word.ofString_end hword
        exact readFile_marked h
      | help | version | unknown => rcases words with _ | ⟨_, _ | ⟨_, _⟩⟩ <;> simp [readFile, hword] at h

lemma Behind.read {inner : Option Path} (h : Behind config file words f inner) (hfuel : words.length ≤ fuel) :
    readFile command outer (fuel + 1) config file words = some (.run command f (inner.or outer)) := by
  have hend : Word.ofString "--" = .endOfOptions := rfl
  induction h generalizing fuel with
  | nothing => simp only [readFile]
  | ended =>
    obtain ⟨fuel, rfl⟩ := Nat.exists_eq_add_of_le' hfuel
    simp only [List.length_singleton, readFile, hend]
  | marked h =>
    obtain ⟨fuel, rfl⟩ := Nat.exists_eq_add_of_le' hfuel
    simp [readFile, hend, h]
  | @file s words _ _ _ h hrest ih =>
    obtain ⟨fuel, rfl⟩ := Nat.exists_eq_add_of_le' hfuel
    rw [readFile_plain h.read, if_neg (by simp [h.1])]
    apply ih
    simp
  | @config option words _ _ _ _ h hrest ih =>
    obtain ⟨word, more, value, hwords, hword, hoption⟩ := h.read words
    have hlength := h.length_pos
    rw [List.length_append] at hfuel
    obtain ⟨fuel, rfl⟩ := Nat.exists_eq_add_of_le' (show 1 ≤ fuel by omega)
    rw [hwords, readFile_config hword hoption]
    exact ih (by omega)

lemma ofString_name {c : Command} : Word.ofString c.name = .plain c.name := by
  cases c <;> rfl

lemma readWords_iff {c : Command} {g : Option Path} : readWords (fuel + 1) config words = some (.run c f g) ↔
    (∃ rest inner, words = c.name :: rest ∧ Behind none none rest f inner ∧ g = inner.or config) ∨
    (config = none ∧ ∃ option path rest, Configures option path ∧ words = option ++ rest ∧
      readWords fuel (some path) rest = some (.run c f g)) := by
  constructor
  · intro h
    cases words with
    | nil => simp [readWords_nil] at h
    | cons word words =>
      rw [readWords] at h
      split at h
      · next name hword =>
        obtain ⟨rfl, -⟩ := Word.ofString_plain.mp hword
        split at h
        · next command hname =>
          obtain ⟨rfl, inner, hbehind, rfl⟩ := readFile_sound h
          exact .inl ⟨words, inner, by rw [ofName?_eq.mp hname], hbehind, rfl⟩
        · split_ifs at h
          cases h
      · next value hword =>
        cases hoption : optionValue value words with
        | none => simp [hoption] at h
        | some read =>
          obtain ⟨path, rest⟩ := read
          simp only [hoption] at h
          split_ifs at h with hconfig
          obtain ⟨option, hconfigures, hwords⟩ := configures_read hword hoption
          exact .inr ⟨by simpa using hconfig, option, path, rest, hconfigures, hwords, h⟩
      all_goals simp at h
  · rintro (⟨rest, inner, rfl, hbehind, rfl⟩ | ⟨rfl, option, path, rest, hconfigures, rfl, h⟩)
    · have hname := ofName?_eq.mpr (Eq.refl c.name)
      simp only [readWords, ofString_name, hname]
      exact hbehind.read (Nat.le_refl _)
    · obtain ⟨word, more, value, hwords, hword, hoption⟩ := hconfigures.read rest
      rw [hwords, readWords]
      simpa [hword, hoption] using h

/-- A command line is read as the run of a command exactly if it is one of the grammar. -/
theorem ofWords?_run : Invocation.ofWords? words = some (.run command f config) ↔ Line words command f config := by
  rw [Invocation.ofWords?]
  constructor
  · intro h
    rcases readWords_iff.mp h with ⟨rest, inner, rfl, hbehind, rfl⟩ | ⟨-, option, path, rest, hoption, rfl, h⟩
    · rw [Option.or_none]
      exact .plain hbehind
    · have hlength := hoption.length_pos
      obtain ⟨fuel, hfuel⟩ := Nat.exists_eq_add_of_le' (show 1 ≤ (option ++ rest).length by simp; omega)
      rw [hfuel] at h
      rcases readWords_iff.mp h with ⟨rest, inner, rfl, hbehind, rfl⟩ | ⟨hnone, -⟩
      · exact .configured hoption hbehind
      · cases hnone
  · intro h
    cases h with
    | plain hbehind => exact readWords_iff.mpr (.inl ⟨_, _, rfl, hbehind, Option.or_none.symm⟩)
    | @configured option words _ path _ _ hoption hbehind =>
      have hlength := hoption.length_pos
      obtain ⟨fuel, hfuel⟩ := Nat.exists_eq_add_of_le'
        (show 1 ≤ (option ++ command.name :: words).length by simp; omega)
      refine readWords_iff.mpr (.inr ⟨rfl, option, path, _, hoption, rfl, ?_⟩)
      rw [hfuel]
      exact readWords_iff.mpr (.inl ⟨_, _, rfl, hbehind, rfl⟩)

example : Line ["--config", "a.toml", "ast", "--config=b.toml", "--", "-d.adoc"] .ast ⟨"-d.adoc"⟩ (some ⟨"b.toml"⟩) :=
  ofWords?_run.mp (by decide)

end

end AdocProse.CommandLine
