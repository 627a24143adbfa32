import AdocProse.Json.Token
import AdocProse.Proofs.Json.Numeral
import AdocProse.Proofs.Json.StringLit

/-! The tokens of a document, one after the other: a blank is passed over, and behind a token the
rest is read as a document of its own. -/

namespace AdocProse.Json

open Utf8 (bytes)

lemma StringLit.scan_length (bs : List UInt8) : (StringLit.scan bs).2.length ≤ bs.length := by
  fun_induction StringLit.scan bs <;> simp only [List.length_cons, List.length_nil] at * <;> omega

namespace Numeral

lemma span_length (bs : List UInt8) : (Decimal.span digit? bs).1.length +
    (Decimal.span digit? bs).2.length = bs.length := by
  induction bs with
  | nil => rfl
  | cons b bs ih =>
    rw [Decimal.span]
    cases digit? b with
    | none => simp
    | some d =>
      simp only [List.length_cons]
      omega

lemma scanDigits_length {bs rest : List UInt8} {ds : List Digit}
    (h : scanDigits bs = .ok (ds, rest)) : rest.length < bs.length := by
  have hlen := span_length bs
  rw [scanDigits] at h
  cases hs : Decimal.span digit? bs with
  | mk es tail =>
    rw [hs] at h hlen
    cases es with
    | nil => simp at h
    | cons e es =>
      simp only [Except.ok.injEq, Prod.mk.injEq] at h
      obtain ⟨-, rfl⟩ := h
      simp only [List.length_cons] at hlen
      omega

lemma scanWhole_length {bs rest : List UInt8} {ds : List Digit}
    (h : scanWhole bs = .ok (ds, rest)) : rest.length < bs.length := by
  rw [scanWhole] at h
  cases hd : scanDigits bs with
  | error f =>
    rw [hd] at h
    cases h
  | ok found =>
    obtain ⟨es, tail⟩ := found
    have hlen := scanDigits_length hd
    rw [hd] at h
    simp only [bind, Except.bind] at h
    split at h
    · cases h
    · cases h
      exact hlen

lemma scanFraction_length {bs rest : List UInt8} {ds : List Digit}
    (h : scanFraction bs = .ok (ds, rest)) : rest.length ≤ bs.length := by
  cases bs with
  | nil =>
    cases h
    exact Nat.le_refl _
  | cons b bs =>
    rw [scanFraction] at h
    split_ifs at h with hp
    · have hlen := scanDigits_length h
      simp only [List.length_cons]
      omega
    · cases h
      exact Nat.le_refl _

lemma scanSign_length (bs : List UInt8) : (scanSign bs).2.length ≤ bs.length := by
  cases bs with
  | nil => exact Nat.le_refl _
  | cons b bs =>
    rw [scanSign]
    split_ifs <;> simp

lemma scanExponent_length {bs rest : List UInt8} {x : Option Exponent}
    (h : scanExponent bs = .ok (x, rest)) : rest.length ≤ bs.length := by
  cases bs with
  | nil =>
    cases h
    exact Nat.le_refl _
  | cons b bs =>
    rw [scanExponent] at h
    split_ifs at h with he
    · have hsign := scanSign_length bs
      cases hd : scanDigits (scanSign bs).2 with
      | error f =>
        simp only [hd] at h
        cases h
      | ok found =>
        have hlen := scanDigits_length hd
        simp only [hd] at h
        cases h
        simp only [List.length_cons]
        omega
    · cases h
      exact Nat.le_refl _

lemma scan_length {negative : Bool} {bs rest : List UInt8} {n : Numeral}
    (h : scan negative bs = .ok (n, rest)) : rest.length < bs.length := by
  rw [scan] at h
  cases hw : scanWhole bs with
  | error f =>
    simp only [hw] at h
    cases h
  | ok whole =>
    have hwhole := scanWhole_length hw
    simp only [hw] at h
    cases hf : scanFraction whole.2 with
    | error f =>
      simp only [bind, Except.bind, hf] at h
      cases h
    | ok fraction =>
      have hfraction := scanFraction_length hf
      simp only [bind, Except.bind, hf] at h
      cases he : scanExponent fraction.2 with
      | error f =>
        simp only [he] at h
        cases h
      | ok exponent =>
        have hexponent := scanExponent_length he
        simp only [he] at h
        cases h
        omega

end Numeral

namespace Token

lemma scanWord_length {cs : List Char} {bs rest : List UInt8} (h : scanWord cs bs = .ok rest) :
    rest.length ≤ bs.length := by
  induction cs generalizing bs with
  | nil =>
    cases h
    exact Nat.le_refl _
  | cons c cs ih =>
    cases bs with
    | nil => cases h
    | cons b bs =>
      rw [scanWord] at h
      split_ifs at h
      have hlen := ih h
      simp only [List.length_cons]
      omega

lemma word_length (t : Token) (cs : List Char) (bs : List UInt8) :
    (word t cs bs).2.length ≤ bs.length := by
  rw [word]
  split
  · next rest h => exact scanWord_length h
  · simp

lemma numeral_length (negative : Bool) (bs : List UInt8) :
    (numeral negative bs).2.length ≤ bs.length - 1 := by
  rw [numeral]
  split
  · next n rest h =>
    have hlen := Numeral.scan_length h
    simp only
    omega
  · simp

lemma scan_length (b : UInt8) (bs : List UInt8) : (scan b bs).2.length ≤ bs.length := by
  rw [scan]
  split
  -- the six marks and the three words
  iterate 6 exact Nat.le_refl _
  iterate 3 exact word_length _ _ _
  · exact StringLit.scan_length bs
  · exact Nat.le_trans (numeral_length true bs) (Nat.sub_le _ _)
  · split_ifs
    · exact numeral_length false (b :: bs)
    · simp

lemma listFor_eq {n : Nat} {bs : List UInt8} (h : bs.length ≤ n) : listFor n bs = list bs := by
  induction n using Nat.strongRecOn generalizing bs with
  | ind n ih =>
    cases bs with
    | nil => cases n <;> rfl
    | cons b bs =>
      cases n with
      | zero => simp at h
      | succ n =>
        simp only [List.length_cons] at h
        have hrest := scan_length b bs
        rw [list, List.length_cons, listFor, listFor]
        -- both sides scan the same token; only the fuel that is left differs
        split_ifs
        · exact ih n (by omega) (by omega)
        · simp only
          rw [ih n (by omega) (by omega), ih bs.length (by omega) hrest]

lemma list_cons (b : UInt8) (bs : List UInt8) :
    list (b :: bs) = if isBlank b then list bs else (scan b bs).1 :: list (scan b bs).2 := by
  rw [list, List.length_cons, listFor, ← list]
  split_ifs
  · rfl
  · simp only
    rw [listFor_eq (scan_length b bs)]

lemma list_string (s : String) (rest : List UInt8) :
    list (bytes (Printer.string s) ++ rest) = .string (StringLit.printed s) :: list rest := by
  have hb : bytes (Printer.string s) ++ rest =
      34 :: (bytes (s.toList.flatMap Printer.escape ++ ['"']) ++ rest) := rfl
  have hs : scan 34 (bytes (s.toList.flatMap Printer.escape ++ ['"']) ++ rest) =
      (.string (StringLit.printed s), rest) := by
    have hscan : ∀ bs, scan 34 bs = (.string (StringLit.scan bs).1, (StringLit.scan bs).2) :=
      fun _ => rfl
    rw [hscan, StringLit.scan_printed]
  rw [hb, list_cons, hs]
  rfl

lemma scan_digit (d : Digit) (bs : List UInt8) :
    isBlank (UInt8.ofNat (48 + d.val)) = false ∧
      scan (UInt8.ofNat (48 + d.val)) bs = numeral false (UInt8.ofNat (48 + d.val) :: bs) := by
  match d with
  | 0 | 1 | 2 | 3 | 4 | 5 | 6 | 7 | 8 | 9 => exact ⟨rfl, rfl⟩

lemma list_natural (n : Nat) {rest : List UInt8} (h : Numeral.Ends rest) :
    list (bytes (Decimal.chars n) ++ rest) = .number (Numeral.printed n) :: list rest := by
  obtain ⟨d, ds, hd⟩ := List.exists_cons_of_ne_nil (Decimal.digits_ne_nil n)
  have hb : bytes (Decimal.chars n) ++ rest =
      UInt8.ofNat (48 + d.val) :: (ds.map (fun d => UInt8.ofNat (48 + d.val)) ++ rest) := by
    rw [Decimal.chars, Numeral.bytes_toChar, hd]
    rfl
  have hnum : numeral false (bytes (Decimal.chars n) ++ rest) =
      (.number (Numeral.printed n), rest) := by
    rw [numeral, Numeral.scan_printed n h]
  have hs := scan_digit d (ds.map (fun d => UInt8.ofNat (48 + d.val)) ++ rest)
  rw [← hb, hnum] at hs
  rw [hb, list_cons, hs.1, hs.2]
  rfl

end Token

end AdocProse.Json
