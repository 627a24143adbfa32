import AdocProse.Text.Quoted
import Mathlib.Tactic.Lemma

/-! A quotation can be read back: every escape gives its character and shows where it ends, and only
the closing quote stands unescaped. There are no line breaks in a quotation. -/

namespace AdocProse.Quoted

def hexValue (cs : List Char) : Nat :=
  cs.foldl (fun n c => 16 * n + if c.toNat < 58 then c.toNat - 48 else c.toNat - 87) 0

lemma hexDigit_facts : ∀ d < 16, hexValue [hexDigit d] = d ∧ hexDigit d ≠ '\x7d' ∧ hexDigit d ≠ '\n' := by
  decide

lemma hexValue_append (cs : List Char) {d : Nat} (hd : d < 16) :
    hexValue (cs ++ [hexDigit d]) = 16 * hexValue cs + d := by
  have hdigit := (hexDigit_facts d hd).1
  simp only [hexValue, List.foldl_append, List.foldl_cons, List.foldl_nil] at hdigit ⊢
  omega

lemma hex_small {n : Nat} (h : n < 16) : hex n = [hexDigit n] := by
  rw [hex, if_pos h]

lemma hex_large {n : Nat} (h : ¬n < 16) : hex n = hex (n / 16) ++ [hexDigit (n % 16)] := by
  rw [hex, if_neg h]

lemma hexValue_hex (n : Nat) : hexValue (hex n) = n := by
  induction n using Nat.strongRecOn with
  | ind n ih =>
    by_cases h : n < 16
    · rw [hex_small h, (hexDigit_facts n h).1]
    · rw [hex_large h, hexValue_append _ (Nat.mod_lt n (by decide)), ih (n / 16) (by omega)]
      exact Nat.div_add_mod n 16

lemma mem_hex {c : Char} {n : Nat} (h : c ∈ hex n) : c ≠ '\x7d' ∧ c ≠ '\n' := by
  induction n using Nat.strongRecOn with
  | ind n ih =>
    by_cases hn : n < 16
    · rw [hex_small hn, List.mem_singleton] at h
      exact h ▸ (hexDigit_facts n hn).2
    · rw [hex_large hn, List.mem_append, List.mem_singleton] at h
      rcases h with h | rfl
      · exact ih (n / 16) (by omega) h
      · exact (hexDigit_facts (n % 16) (Nat.mod_lt n (by decide))).2

def marked? (e : Char) : Option Char :=
  match e with
  | '0' => some '\x00'
  | 't' => some '\t'
  | 'n' => some '\n'
  | 'r' => some '\r'
  | '"' => some '"'
  | '\\' => some '\\'
  | _ => none

/-- The character that a text inside a quotation begins with, and the text behind it. -/
def unescape : List Char → Option (Char × List Char)
  | [] => none
  | '"' :: _ => none
  | ['\\'] => none
  | '\\' :: 'u' :: cs =>
    some (Char.ofNat (hexValue (cs.tail.takeWhile (· != '\x7d'))), (cs.dropWhile (· != '\x7d')).tail)
  | '\\' :: e :: cs => (marked? e).map (·, cs)
  | c :: cs => some (c, cs)

lemma unescape_code (n : Nat) (cs : List Char) :
    unescape (['\\', 'u', '\x7b'] ++ hex n ++ ['\x7d'] ++ cs) = some (Char.ofNat n, cs) := by
  have hdigits : ∀ c ∈ hex n, (c != '\x7d') = true := fun c hc => by simpa using (mem_hex hc).1
  have htake : (hex n ++ '\x7d' :: cs).takeWhile (· != '\x7d') = hex n := by
    rw [List.takeWhile_append_of_pos hdigits]
    simp
  have hdrop : ('\x7b' :: (hex n ++ '\x7d' :: cs)).dropWhile (· != '\x7d') = '\x7d' :: cs := by
    rw [List.dropWhile_cons_of_pos (by decide), List.dropWhile_append_of_pos hdigits]
    simp
  simp only [List.append_assoc, List.cons_append, List.nil_append, unescape, List.tail_cons, htake,
    hdrop, hexValue_hex]

lemma unescape_shown {c : Char} (hquote : c ≠ '"') (hbackslash : c ≠ '\\') (cs : List Char) :
    unescape (c :: cs) = some (c, cs) := by
  rw [unescape]
  · exact hquote
  all_goals simp [hbackslash]

lemma unescape_escape (c : Char) (cs : List Char) : unescape (escape c ++ cs) = some (c, cs) := by
  have hc := Char.ofNat_toNat c
  unfold escape
  -- one case for each character that is escaped with one letter
  split
  iterate 6
    next h =>
      rw [h] at hc
      rw [← hc]
      rfl
  next hquote hbackslash =>
    split
    · rw [unescape_code, hc]
    · exact unescape_shown (ne_of_apply_ne Char.toNat hquote) (ne_of_apply_ne Char.toNat hbackslash) cs

lemma escapes_append_inj {cs ds xs ys : List Char}
    (h : cs.flatMap escape ++ '"' :: xs = ds.flatMap escape ++ '"' :: ys) : cs = ds ∧ xs = ys := by
  induction cs generalizing ds with
  | nil =>
    cases ds with
    | nil => exact ⟨rfl, (List.cons.inj h).2⟩
    | cons d ds =>
      rw [List.flatMap_cons, List.append_assoc] at h
      have hnone := congrArg unescape h
      rw [unescape_escape] at hnone
      cases hnone
  | cons c cs ih =>
    rw [List.flatMap_cons, List.append_assoc] at h
    have hfirst := congrArg unescape h
    rw [unescape_escape] at hfirst
    cases ds with
    | nil => cases hfirst
    | cons d ds =>
      rw [List.flatMap_cons, List.append_assoc, unescape_escape, Option.some.injEq, Prod.mk.injEq] at hfirst
      obtain ⟨rfl, hrest⟩ := hfirst
      obtain ⟨rfl, rfl⟩ := ih hrest
      exact ⟨rfl, rfl⟩

lemma encode_inj {cs ds : List Char} (h : encode cs = encode ds) : cs = ds :=
  (escapes_append_inj (List.cons.inj h).2).1

lemma newline_not_mem_escape (c : Char) : '\n' ∉ escape c := by
  unfold escape
  split
  iterate 6 decide
  next hnewline _ _ _ =>
    split
    · simp only [List.mem_append, List.mem_cons, List.not_mem_nil]
      rintro ((h | h) | h)
      · simp at h
      · exact (mem_hex h).2 rfl
      · simp at h
    · rw [List.mem_singleton]
      exact (ne_of_apply_ne Char.toNat hnewline).symm

lemma newline_not_mem_encode (cs : List Char) : '\n' ∉ encode cs := by
  rw [encode, List.mem_cons, List.mem_append, List.mem_flatMap]
  rintro (h | ⟨c, -, h⟩ | h)
  · simp at h
  · exact newline_not_mem_escape c h
  · simp at h

end AdocProse.Quoted
