import AdocProse.Json.Printer
import AdocProse.Json.StringLit
import AdocProse.Proofs.Text.Utf8

/-! A printed string is scanned as one literal, whose text is the string. -/

namespace AdocProse.Json.StringLit

open Utf8 (bytes)

def prepend (ps : List Piece) (s : StringLit) : StringLit :=
  ⟨ps ++ s.pieces, s.fault⟩

def charPieces (c : Char) : List Piece :=
  if c.toNat < 0x20 ∧ c.toNat ∉ [8, 9, 10, 12, 13] then [.unit c.toNat]
  else (String.utf8EncodeChar c).map .byte

def printed (s : String) : StringLit :=
  ⟨s.toList.flatMap charPieces, none⟩

def Plain (b : UInt8) : Prop :=
  b ≠ 34 ∧ b ≠ 92 ∧ ¬b < 32

lemma scan_close (bs : List UInt8) : scan (34 :: bs) = (⟨[], none⟩, bs) := by
  rw [scan.eq_def]
  rfl

lemma scan_byte {b : UInt8} (h : Plain b) (bs : List UInt8) :
    scan (b :: bs) = ((scan bs).1.cons (.byte b), (scan bs).2) := by
  obtain ⟨hquote, hbackslash, hcontrol⟩ := h
  rw [scan.eq_def]
  simp only [if_neg hquote, if_neg hbackslash, if_neg hcontrol]

lemma scan_simple {e b : UInt8} (hne : e ≠ 117) (h : simpleEscape? (Utf8.letter e) = some b)
    (bs : List UInt8) : scan (92 :: e :: bs) = ((scan bs).1.cons (.byte b), (scan bs).2) := by
  rw [scan.eq_def]
  simp only [show (92 : UInt8) ≠ 34 by decide, hne, h, if_false, if_true]

lemma scan_unit {h₁ h₂ h₃ h₄ : UInt8} {u : Nat} (h : unit? h₁ h₂ h₃ h₄ = some u)
    (bs : List UInt8) :
    scan (92 :: 117 :: h₁ :: h₂ :: h₃ :: h₄ :: bs) =
      ((scan bs).1.cons (.unit u), (scan bs).2) := by
  rw [scan.eq_def]
  simp only [show (92 : UInt8) ≠ 34 by decide, h, if_false, if_true]

lemma scan_plain {bs : List UInt8} (h : ∀ b ∈ bs, Plain b) (rest : List UInt8) :
    scan (bs ++ rest) = (prepend (bs.map .byte) (scan rest).1, (scan rest).2) := by
  induction bs with
  | nil => rfl
  | cons b bs ih =>
    rw [List.cons_append, scan_byte (h b (by simp)), ih (fun b hb => h b (List.mem_cons_of_mem _ hb))]
    rfl

lemma plain_ofNat {n : Nat} (hn : n < 256) (hlow : 32 ≤ n) (hquote : n ≠ 34) (hbackslash : n ≠ 92) :
    Plain (UInt8.ofNat n) := by
  have hb := Utf8.toNat_ofNat hn
  refine ⟨?_, ?_, ?_⟩
  · rintro h
    rw [h] at hb
    exact hquote hb.symm
  · rintro h
    rw [h] at hb
    exact hbackslash hb.symm
  · rw [UInt8.lt_iff_toNat_lt, hb]
    simpa using hlow

lemma plain_encodeChar {c : Char} (hlow : 32 ≤ c.toNat) (hquote : c.toNat ≠ 34)
    (hbackslash : c.toNat ≠ 92) : ∀ b ∈ String.utf8EncodeChar c, Plain b := by
  intro b hb
  simp only [String.utf8EncodeChar, show c.val.toNat = c.toNat from rfl] at hb
  split_ifs at hb
  all_goals
    simp only [List.mem_cons, List.not_mem_nil, or_false] at hb
  · rw [hb]
    exact plain_ofNat (by omega) hlow hquote hbackslash
  · rcases hb with rfl | rfl <;> exact plain_ofNat (by omega) (by omega) (by omega) (by omega)
  · rcases hb with rfl | rfl | rfl <;>
      exact plain_ofNat (by omega) (by omega) (by omega) (by omega)
  · rcases hb with rfl | rfl | rfl | rfl <;>
      exact plain_ofNat (by omega) (by omega) (by omega) (by omega)

def hexByte (d : Nat) : UInt8 :=
  UInt8.ofNat (Quoted.hexDigit d).toNat

lemma control_unit : ∀ n < 0x20, n ∉ [8, 9, 10, 12, 13] →
    bytes (Printer.escape (Char.ofNat n)) =
      [92, 117, 48, 48, hexByte (n / 16), hexByte (n % 16)] ∧
    unit? 48 48 (hexByte (n / 16)) (hexByte (n % 16)) = some n ∧
    charPieces (Char.ofNat n) = [.unit n] := by
  decide

lemma scan_control {n : Nat} (h : n < 0x20) (rest : List UInt8) :
    scan (bytes (Printer.escape (Char.ofNat n)) ++ rest) =
      (prepend (charPieces (Char.ofNat n)) (scan rest).1, (scan rest).2) := by
  by_cases hn : n ∈ [8, 9, 10, 12, 13]
  · simp only [List.mem_cons, List.not_mem_nil, or_false] at hn
    rcases hn with rfl | rfl | rfl | rfl | rfl <;> exact scan_simple (by decide) rfl rest
  · obtain ⟨hbytes, hunit, hpieces⟩ := control_unit n h hn
    rw [hbytes, hpieces]
    exact scan_unit hunit rest

lemma escape_other {c : Char} (hlow : 0x20 ≤ c.toNat) (hquote : c ≠ '"') (hbackslash : c ≠ '\\') :
    Printer.escape c = [c] := by
  have hsmall : ∀ n < 0x20, (Char.ofNat n).toNat < 0x20 := by decide
  have hne : ∀ n < 0x20, c ≠ Char.ofNat n := by
    rintro n hn rfl
    exact absurd (hsmall n hn) (Nat.not_lt.mpr hlow)
  unfold Printer.escape
  split
  · exact absurd rfl hquote
  · exact absurd rfl hbackslash
  · exact absurd rfl (hne 8 (by decide))
  · exact absurd rfl (hne 12 (by decide))
  · exact absurd rfl (hne 10 (by decide))
  · exact absurd rfl (hne 13 (by decide))
  · exact absurd rfl (hne 9 (by decide))
  · rw [if_neg (by omega)]

lemma scan_escape (c : Char) (rest : List UInt8) :
    scan (bytes (Printer.escape c) ++ rest) =
      (prepend (charPieces c) (scan rest).1, (scan rest).2) := by
  by_cases hlow : c.toNat < 0x20
  · have hc := scan_control hlow rest
    rwa [Char.ofNat_toNat] at hc
  · by_cases hquote : c = '"'
    · subst hquote
      exact scan_simple (by decide) rfl rest
    · by_cases hbackslash : c = '\\'
      · subst hbackslash
        exact scan_simple (by decide) rfl rest
      · have hplain : ∀ b ∈ String.utf8EncodeChar c, Plain b := by
          refine plain_encodeChar (by omega) ?_ ?_
          · intro h
            exact hquote (Char.toNat_inj.mp h)
          · intro h
            exact hbackslash (Char.toNat_inj.mp h)
        rw [escape_other (by omega) hquote hbackslash, charPieces, if_neg (by omega), ← scan_plain hplain]
        simp [bytes]

lemma scan_printed (s : String) (rest : List UInt8) :
    scan (bytes (s.toList.flatMap Printer.escape ++ ['"']) ++ rest) = (printed s, rest) := by
  unfold printed
  induction s.toList with
  | nil => exact scan_close rest
  | cons c cs ih =>
    rw [List.flatMap_cons, List.append_assoc, Utf8.bytes_append, List.append_assoc, scan_escape, ih]
    rfl

lemma bytesFrom_bytes (fault : Option Fault) (bs : List UInt8) (ps : List Piece) :
    bytesFrom fault none (bs.map .byte ++ ps) = (bs ++ ·) <$> bytesFrom fault none ps := by
  induction bs with
  | nil => simp
  | cons b bs ih =>
    rw [List.map_cons, List.cons_append, bytesFrom, ih, ← comp_map]
    rfl

lemma bytesFrom_char (fault : Option Fault) (c : Char) (ps : List Piece) :
    bytesFrom fault none (charPieces c ++ ps) =
      (String.utf8EncodeChar c ++ ·) <$> bytesFrom fault none ps := by
  unfold charPieces
  split_ifs with h
  · have hlead : isLead c.toNat = false := by
      simp only [isLead, Bool.and_eq_false_iff, decide_eq_false_iff_not]
      omega
    have htrail : isTrail c.toNat = false := by
      simp only [isTrail, Bool.and_eq_false_iff, decide_eq_false_iff_not]
      omega
    simp only [List.cons_append, List.nil_append, bytesFrom, hlead, htrail, Char.ofNat_toNat,
      Bool.false_eq_true, if_false]
  · exact bytesFrom_bytes fault _ ps

lemma bytesFrom_chars (cs : List Char) :
    bytesFrom none none (cs.flatMap charPieces) = .ok (bytes cs) := by
  induction cs with
  | nil => rfl
  | cons c cs ih =>
    rw [List.flatMap_cons, bytesFrom_char, ih]
    rfl

lemma text_printed (s : String) : (printed s).text = .ok s := by
  have hb : bytesFrom none none (printed s).pieces = .ok (Utf8.encode s) := bytesFrom_chars s.toList
  rw [text, show (printed s).fault = none from rfl, hb]
  simp only [bind, Except.bind, Utf8.decode?_encode]

end AdocProse.Json.StringLit
