import AdocProse.Proofs.Json.Grammar
import Mathlib.Data.List.Chain

/-! A document that is laid out of tokens is split into these tokens again, unless a number stands right
in front of something that is no mark. -/

namespace AdocProse.Json

open Utf8 (bytes)

namespace Numeral

lemma scanSign_digit (d : Digit) (bs : List UInt8) :
    scanSign (UInt8.ofNat (48 + d.val) :: bs) = (false, UInt8.ofNat (48 + d.val) :: bs) := by
  match d with
  | 0 | 1 | 2 | 3 | 4 | 5 | 6 | 7 | 8 | 9 => rfl

lemma scanExponent_written {x : Option Exponent} {cs : List Char} (h : Exponent.Spelled x cs)
    {rest : List UInt8} (hrest : Ends rest) :
    scanExponent (bytes cs ++ rest) = .ok (x, rest) := by
  cases h with
  | absent => exact scanExponent_none hrest
  | @present x e sign he hsign hne =>
    obtain ⟨negative, ds⟩ := x
    have hdigits := scanDigits_written hne fun b hb => (hrest b hb).1
    have hsigned : scanSign (bytes (sign ++ ds.map Digit.toChar) ++ rest) =
        (negative, bytes (ds.map Digit.toChar) ++ rest) := by
      obtain ⟨d, ds, rfl⟩ := List.exists_cons_of_ne_nil hne
      cases negative with
      | true =>
        obtain rfl : sign = ['-'] := hsign
        rfl
      | false =>
        obtain rfl | rfl : sign = [] ∨ sign = ['+'] := by simpa using hsign
        · rw [List.nil_append, bytes_toChar]
          exact scanSign_digit d _
        · rfl
    have hmark : bytes (e :: (sign ++ ds.map Digit.toChar)) ++ rest =
        (if e = 'e' then 101 else 69) :: (bytes (sign ++ ds.map Digit.toChar) ++ rest) := by
      rcases he with rfl | rfl <;> rfl
    rw [hmark, scanExponent, if_pos (by rcases he with rfl | rfl <;> decide)]
    simp only [hsigned, hdigits]
    rfl

lemma ends_of_exponent {x : Option Exponent} {cs : List Char} (h : Exponent.Spelled x cs)
    {rest : List UInt8} (hrest : Ends rest) :
    ∀ b ∈ (bytes cs ++ rest).head?, digit? b = none ∧ Utf8.letter b ≠ '.' := by
  cases h with
  | absent => exact fun b hb => ⟨(hrest b hb).1, (hrest b hb).2.1⟩
  | present he =>
    intro b hb
    rcases he with rfl | rfl
    · obtain rfl : 101 = b := Option.some.inj hb
      decide
    · obtain rfl : 69 = b := Option.some.inj hb
      decide

lemma scan_written {n : Numeral} {exponent : List Char} (hne : n.whole ≠ [])
    (hzero : ∀ ds, n.whole = 0 :: ds → ds = []) (hexponent : Exponent.Spelled n.exponent exponent)
    {rest : List UInt8} (hrest : Ends rest) :
    scan n.negative (bytes (n.whole.map Digit.toChar ++
      (if n.fraction = [] then [] else '.' :: n.fraction.map Digit.toChar) ++ exponent) ++ rest) =
        .ok (n, rest) := by
  obtain ⟨negative, whole, fraction, x⟩ := n
  have hends := ends_of_exponent hexponent hrest
  have hexp := scanExponent_written hexponent hrest
  rw [Utf8.bytes_append, Utf8.bytes_append, List.append_assoc, List.append_assoc, scan]
  cases fraction with
  | nil =>
    have hfraction : scanFraction (bytes exponent ++ rest) = .ok ([], bytes exponent ++ rest) := by
      cases htail : bytes exponent ++ rest with
      | nil => rfl
      | cons b bs =>
        rw [htail] at hends
        rw [scanFraction, if_neg (hends b rfl).2]
    rw [if_pos rfl, Utf8.bytes_nil, List.nil_append, scanWhole_written hne hzero fun b hb => (hends b hb).1]
    simp only [bind, Except.bind, hfraction, hexp]
  | cons d ds =>
    have hfraction := scanDigits_written (List.cons_ne_nil d ds) fun b hb => (hends b hb).1
    rw [if_neg (List.cons_ne_nil d ds), scanWhole_written hne hzero (by
      intro b hb
      obtain rfl : 46 = b := Option.some.inj hb
      rfl)]
    simp only [bind, Except.bind]
    have hpoint : scanFraction (bytes ('.' :: (d :: ds).map Digit.toChar) ++ (bytes exponent ++ rest)) =
        .ok (d :: ds, bytes exponent ++ rest) := hfraction
    simp only [hpoint, hexp]

end Numeral

namespace StringLit

lemma scan_piece {p : Piece} {bs : List UInt8} (h : p.Spelled bs) (rest : List UInt8) :
    scan (bs ++ rest) = ((scan rest).1.cons p, (scan rest).2) := by
  cases h with
  | plain h => exact scan_byte h rest
  | @escaped letter b h =>
    have hescape : letter ≠ 117 ∧ simpleEscape? (Utf8.letter letter) = some b := by
      simp only [List.mem_cons, Prod.mk.injEq, List.not_mem_nil, or_false] at h
      rcases h with ⟨rfl, rfl⟩ | ⟨rfl, rfl⟩ | ⟨rfl, rfl⟩ | ⟨rfl, rfl⟩ | ⟨rfl, rfl⟩ | ⟨rfl, rfl⟩ |
        ⟨rfl, rfl⟩ | ⟨rfl, rfl⟩ <;> decide
    exact scan_simple hescape.1 hescape.2 rest
  | coded h => exact scan_unit h rest

lemma scan_pieces {ps : List Piece} {parts : List (List UInt8)}
    (h : List.Forall₂ Piece.Spelled ps parts) (rest : List UInt8) :
    scan (parts.flatten ++ 34 :: rest) = (⟨ps, none⟩, rest) := by
  induction h with
  | nil => exact scan_close rest
  | cons hp _ ih =>
    rw [List.flatten_cons, List.append_assoc, scan_piece hp, ih]
    rfl

end StringLit

namespace Token

def isNumber : Token → Bool
  | .number _ => true
  | _ => false

lemma list_number {n : Numeral} {cs : List Char} (h : n.Spelled cs) {rest : List UInt8}
    (hrest : Numeral.Ends rest) : list (bytes cs ++ rest) = .number n :: list rest := by
  cases h with
  | @mk exponent hne hzero hexponent =>
    obtain ⟨negative, whole, fraction, x⟩ := n
    obtain ⟨d, ds, rfl⟩ := List.exists_cons_of_ne_nil hne
    have hscan := Numeral.scan_written hne hzero hexponent hrest
    simp only [List.append_assoc, List.map_cons, List.cons_append] at hscan ⊢
    generalize ds.map Digit.toChar ++ _ = cs at hscan ⊢
    have hnumeral : numeral negative (bytes (d.toChar :: cs) ++ rest) =
        (.number ⟨negative, d :: ds, fraction, x⟩, rest) := by
      rw [numeral, hscan]
    cases negative with
    | true =>
      have hsign : bytes ('-' :: d.toChar :: cs) ++ rest = 45 :: (bytes (d.toChar :: cs) ++ rest) := rfl
      have hminus : scan 45 (bytes (d.toChar :: cs) ++ rest) =
          (.number ⟨true, d :: ds, fraction, x⟩, rest) := hnumeral
      rw [if_pos rfl, List.cons_append, List.nil_append, hsign, list_cons, hminus]
      rfl
    | false =>
      have hfirst : bytes (d.toChar :: cs) ++ rest = UInt8.ofNat (48 + d.val) :: (bytes cs ++ rest) := by
        rw [Utf8.bytes_cons, (Numeral.toChar_facts d).1]
        rfl
      obtain ⟨hblank, hdigit⟩ := scan_digit d (bytes cs ++ rest)
      rw [← hfirst, hnumeral] at hdigit
      rw [if_neg (by simp), List.nil_append, hfirst, list_cons, hblank, hdigit]
      rfl

lemma list_spelled {t : Token} {bs : List UInt8} (h : t.Spelled bs) {rest : List UInt8}
    (hrest : t.isNumber = true → Numeral.Ends rest) : list (bs ++ rest) = t :: list rest := by
  cases h with
  | @fixed t cs h =>
    simp only [fixed, List.mem_cons, Prod.mk.injEq, List.not_mem_nil, or_false] at h
    rcases h with ⟨rfl, rfl⟩ | ⟨rfl, rfl⟩ | ⟨rfl, rfl⟩ | ⟨rfl, rfl⟩ | ⟨rfl, rfl⟩ | ⟨rfl, rfl⟩ |
      ⟨rfl, rfl⟩ | ⟨rfl, rfl⟩ | ⟨rfl, rfl⟩
    all_goals exact list_cons _ _
  | @string ps parts h =>
    rw [List.cons_append, List.append_assoc, List.singleton_append, list_cons]
    have hscan : scan 34 (parts.flatten ++ 34 :: rest) = (.string ⟨ps, none⟩, rest) := by
      change (Token.string (StringLit.scan _).1, (StringLit.scan _).2) = _
      rw [StringLit.scan_pieces h]
    rw [hscan]
    rfl
  | number h => exact list_number h (hrest rfl)

def isMark : Token → Bool
  | .comma | .closeArray | .closeObject => true
  | _ => false

/-- Two tokens may follow each other without a blank between them. -/
def Parts (t u : Token) : Prop :=
  t.isNumber = true → u.isMark = true

lemma list_blanks {blanks : List UInt8} (h : Blanks blanks) (rest : List UInt8) :
    list (blanks ++ rest) = list rest := by
  induction blanks with
  | nil => rfl
  | cons b blanks ih =>
    rw [List.cons_append, list_cons, if_pos (h b List.mem_cons_self)]
    exact ih fun c hc => h c (List.mem_cons_of_mem _ hc)

lemma ends_blank {b : UInt8} (h : isBlank b = true) (rest : List UInt8) : Numeral.Ends (b :: rest) := by
  intro c hc
  obtain rfl : b = c := Option.some.inj hc
  simp only [isBlank, Bool.or_eq_true, beq_iff_eq] at h
  rcases h with ((rfl | rfl) | rfl) | rfl <;> decide

lemma mark_spelled {t : Token} (h : t.isMark = true) {bs : List UInt8} (ht : t.Spelled bs) :
    bs = [44] ∨ bs = [93] ∨ bs = [125] := by
  cases ht with
  | @fixed t cs hcs =>
    simp only [fixed, List.mem_cons, Prod.mk.injEq, List.not_mem_nil, or_false] at hcs
    rcases hcs with ⟨rfl, rfl⟩ | ⟨rfl, rfl⟩ | ⟨rfl, rfl⟩ | ⟨rfl, rfl⟩ | ⟨rfl, rfl⟩ | ⟨rfl, rfl⟩ |
      ⟨rfl, rfl⟩ | ⟨rfl, rfl⟩ | ⟨rfl, rfl⟩
    all_goals
      revert h
      decide
  | string => cases h
  | number => cases h

lemma ends_of_isMark {t : Token} (h : t.isMark = true) {bs : List UInt8} (ht : t.Spelled bs)
    (rest : List UInt8) : Numeral.Ends (bs ++ rest) := by
  intro b hb
  obtain rfl | rfl | rfl := mark_spelled h ht
  all_goals
    obtain rfl := Option.some.inj hb
    decide

lemma ends_laid {ts : List Token} {bs : List UInt8} (h : Laid ts bs)
    (hmark : ∀ t ∈ ts.head?, t.isMark = true) : Numeral.Ends bs := by
  cases h with
  | nil h =>
    cases bs with
    | nil => simp [Numeral.Ends]
    | cons b bs => exact ends_blank (h b List.mem_cons_self) bs
  | @cons t ts blanks bs rest hblanks ht hts =>
    cases blanks with
    | nil => exact ends_of_isMark (hmark t rfl) ht rest
    | cons b blanks => exact ends_blank (hblanks b List.mem_cons_self) _

lemma list_laid {ts : List Token} {bs : List UInt8} (h : Laid ts bs) (hparts : ts.IsChain Parts) :
    list bs = ts := by
  induction h with
  | @nil blanks hblanks =>
    have hlist := list_blanks hblanks []
    rwa [List.append_nil] at hlist
  | cons hblanks ht hts ih =>
    obtain ⟨hfirst, hrest⟩ := List.isChain_cons.mp hparts
    rw [list_blanks hblanks, list_spelled ht, ih hrest]
    intro hnumber
    exact ends_laid hts fun u hu => hfirst u hu hnumber

end Token

end AdocProse.Json
