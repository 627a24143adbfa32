import AdocProse.Proofs.Text.Pieces
import AdocProse.Proofs.Text.Utf8
import AdocProse.Web.Form

/-! What a server reads from a form: the pairs between the `&`, each cut at its first `=`, with blanks and
bytes in place of what stands for them. It reads the pairs that were written. -/

namespace AdocProse.Form

def hexValue (c : Char) : Option Nat :=
  if '0' ≤ c ∧ c ≤ '9' then some (c.toNat - 48)
  else if 'A' ≤ c ∧ c ≤ 'F' then some (c.toNat - 55)
  else if 'a' ≤ c ∧ c ≤ 'f' then some (c.toNat - 87)
  else none

/-- The bytes that the characters of a name or a value stand for. -/
def unescape : List Char → List UInt8
  | [] => []
  | '%' :: a :: b :: cs =>
    match hexValue a, hexValue b with
    | some m, some n => UInt8.ofNat (m * 16 + n) :: unescape cs
    | _, _ => 0x25 :: unescape (a :: b :: cs)
  | '+' :: cs => 0x20 :: unescape cs
  | c :: cs => UInt8.ofNat c.toNat :: unescape cs

def decodeString (cs : List Char) : String :=
  Utf8.decodeLossy (unescape cs)

def decodePair (cs : List Char) : String × String :=
  (decodeString (cs.takeWhile (· ≠ '=')), decodeString ((cs.dropWhile (· ≠ '=')).drop 1))

def decode (body : List UInt8) : List (String × String) :=
  ((Pieces.split '&' (body.map Utf8.letter)).filter (· ≠ [])).map decodePair

/-- The characters that a form is written with, the marks between its names and values apart. -/
def Written (c : Char) : Prop :=
  c = '+' ∨ c = '%' ∨ isPlain c = true

lemma upperHex_facts : ∀ n < 16, hexValue (upperHex n) = some n ∧ isPlain (upperHex n) = true := by decide

lemma plain_ne {c d : Char} (h : isPlain c = true) (hd : isPlain d = false) : c ≠ d := by
  rintro rfl
  rw [h] at hd
  cases hd

lemma plain_ascii {c : Char} (h : isPlain c = true) : c.toNat < 128 := by
  have hbelow {last : Char} (hascii : last.toNat < 128) (hlast : c ≤ last) : c.toNat < 128 :=
    Nat.lt_of_le_of_lt (UInt32.le_iff_toNat_le.mp hlast) hascii
  have hupper (hc : c.isUpper = true) : c ≤ 'Z' := (of_decide_eq_true hc).2
  have hlower (hc : c.isLower = true) : c ≤ 'z' := of_decide_eq_true (Bool.and_eq_true_iff.mp hc).2
  have hdigit (hc : c.isDigit = true) : c ≤ '9' := of_decide_eq_true (Bool.and_eq_true_iff.mp hc).2
  have hletter (hc : c.isAlpha = true) : c.isUpper = true ∨ c.isLower = true := Bool.or_eq_true_iff.mp hc
  simp only [isPlain, Char.isAlphanum, Bool.or_eq_true, beq_iff_eq] at h
  rcases h with ((((halpha | hc) | rfl) | rfl) | rfl) | rfl
  · rcases hletter halpha with hc | hc
    · exact hbelow (by decide) (hupper hc)
    · exact hbelow (by decide) (hlower hc)
  · exact hbelow (by decide) (hdigit hc)
  all_goals decide

lemma Written.ne_mark {c : Char} (h : Written c) : c ≠ '&' ∧ c ≠ '=' := by
  rcases h with rfl | rfl | h
  · decide
  · decide
  · exact ⟨plain_ne h (by decide), plain_ne h (by decide)⟩

lemma Written.ascii {c : Char} (h : Written c) : c.toNat < 128 := by
  rcases h with rfl | rfl | h
  · decide
  · decide
  · exact plain_ascii h

lemma encodeByte_written (b : UInt8) : ∀ c ∈ encodeByte b, Written c := by
  have hb := b.toNat_lt
  intro c hc
  rw [encodeByte] at hc
  split at hc
  · exact .inl (List.mem_singleton.mp hc)
  · split at hc
    · next hplain => exact .inr (.inr (List.mem_singleton.mp hc ▸ hplain))
    · simp only [percent, List.mem_cons, List.not_mem_nil, or_false] at hc
      rcases hc with rfl | rfl | rfl
      · exact .inr (.inl rfl)
      · exact .inr (.inr (upperHex_facts _ (by omega)).2)
      · exact .inr (.inr (upperHex_facts _ (by omega)).2)

lemma encodeString_written (s : String) : ∀ c ∈ encodeString s, Written c := by
  intro c hc
  obtain ⟨b, -, hc⟩ := List.mem_flatMap.mp hc
  exact encodeByte_written b c hc

lemma unescape_plain {c : Char} (hpercent : c ≠ '%') (hplus : c ≠ '+') (cs : List Char) :
    unescape (c :: cs) = UInt8.ofNat c.toNat :: unescape cs := by
  rw [unescape]
  · exact fun _ _ _ h => absurd h hpercent
  · exact hplus

lemma unescape_percent (b : UInt8) (cs : List Char) : unescape (percent b ++ cs) = b :: unescape cs := by
  have hb := b.toNat_lt
  have hhigh := (upperHex_facts (b.toNat / 16) (by omega)).1
  have hlow := (upperHex_facts (b.toNat % 16) (by omega)).1
  have hbyte : UInt8.ofNat (b.toNat / 16 * 16 + b.toNat % 16) = b := by
    rw [Nat.div_add_mod', UInt8.ofNat_toNat]
  simp only [percent, List.cons_append, List.nil_append, unescape, hhigh, hlow, hbyte]

lemma letter_toNat (b : UInt8) : (Utf8.letter b).toNat = b.toNat := by
  have hall : ∀ n < 256, (Char.ofNat n).toNat = n := by decide +kernel
  exact hall _ b.toNat_lt

lemma unescape_encodeByte (b : UInt8) (cs : List Char) : unescape (encodeByte b ++ cs) = b :: unescape cs := by
  have hletter : UInt8.ofNat (Utf8.letter b).toNat = b := by rw [letter_toNat, UInt8.ofNat_toNat]
  rw [encodeByte]
  split
  · next hblank =>
    rw [hblank] at hletter
    rw [← hletter]
    rfl
  · split
    · next hplain =>
      rw [List.singleton_append, unescape_plain (plain_ne hplain (by decide)) (plain_ne hplain (by decide)), hletter]
    · exact unescape_percent b cs

lemma unescape_encodeBytes (bytes : List UInt8) : unescape (bytes.flatMap encodeByte) = bytes := by
  induction bytes with
  | nil => rfl
  | cons b bytes ih => rw [List.flatMap_cons, unescape_encodeByte, ih]

lemma decodeString_encodeString (s : String) : decodeString (encodeString s) = s := by
  rw [decodeString, encodeString, unescape_encodeBytes, Utf8.decodeLossy_encode]

lemma decodePair_encodePair (p : String × String) : decodePair (encodePair p) = p := by
  have hname : ∀ c ∈ encodeString p.1, decide (c ≠ '=') = true :=
    fun c hc => decide_eq_true (encodeString_written _ c hc).ne_mark.2
  rw [decodePair, encodePair, List.takeWhile_append_of_pos hname, List.dropWhile_append_of_pos hname]
  simp [decodeString_encodeString]

lemma encodePair_ne_nil (p : String × String) : encodePair p ≠ [] := by
  simp [encodePair]

lemma encodePair_separate (p : String × String) : '&' ∉ encodePair p := by
  rw [encodePair, List.mem_append, List.mem_cons, not_or, not_or]
  exact ⟨fun h => (encodeString_written _ _ h).ne_mark.1 rfl, by decide,
    fun h => (encodeString_written _ _ h).ne_mark.1 rfl⟩

lemma encodeChars_eq (ps : List (String × String)) : encodeChars ps = Pieces.join '&' (ps.map encodePair) := by
  induction ps with
  | nil => rfl
  | cons p ps ih =>
    cases ps with
    | nil => rfl
    | cons q ps =>
      change encodePair p ++ '&' :: encodeChars (q :: ps) = _
      rw [ih]
      rfl

lemma encodePair_ascii (p : String × String) : ∀ c ∈ encodePair p, c.toNat < 128 := by
  intro c hc
  rw [encodePair, List.mem_append, List.mem_cons] at hc
  rcases hc with hc | rfl | hc
  · exact (encodeString_written _ c hc).ascii
  · decide
  · exact (encodeString_written _ c hc).ascii

lemma join_ascii {pieces : List (List Char)} (h : ∀ piece ∈ pieces, ∀ c ∈ piece, c.toNat < 128) :
    ∀ c ∈ Pieces.join '&' pieces, c.toNat < 128 := by
  induction pieces with
  | nil => simp [Pieces.join]
  | cons piece pieces ih =>
    rw [List.forall_mem_cons] at h
    cases pieces with
    | nil => exact h.1
    | cons next pieces =>
      rw [Pieces.join, List.forall_mem_append, List.forall_mem_cons]
      · exact ⟨h.1, by decide, ih h.2⟩
      · simp

lemma letters_bytes {cs : List Char} (h : ∀ c ∈ cs, c.toNat < 128) : (Utf8.bytes cs).map Utf8.letter = cs := by
  induction cs with
  | nil => rfl
  | cons c cs ih =>
    rw [List.forall_mem_cons] at h
    have hbyte : String.utf8EncodeChar c = [UInt8.ofNat c.toNat] := by
      have hc : c.toNat ≤ 0x7F := Nat.le_of_lt_succ h.1
      simp only [String.utf8EncodeChar, show c.val.toNat = c.toNat from rfl, if_pos hc]
    have hletter : Utf8.letter (UInt8.ofNat c.toNat) = c := by
      rw [Utf8.letter, Utf8.toNat_ofNat (by omega), Char.ofNat_toNat]
    rw [Utf8.bytes_cons, hbyte, List.map_append, ih h.2, List.map_singleton, hletter, List.singleton_append]

theorem decode_encode (ps : List (String × String)) : decode (Utf8.encode (encode ps)) = ps := by
  have hascii : ∀ piece ∈ ps.map encodePair, ∀ c ∈ piece, c.toNat < 128 := by
    rw [List.forall_mem_map]
    exact fun p _ => encodePair_ascii p
  have hseparate : ∀ piece ∈ ps.map encodePair, '&' ∉ piece := by
    rw [List.forall_mem_map]
    exact fun p _ => encodePair_separate p
  have hkept : ∀ piece ∈ ps.map encodePair, decide (piece ≠ []) = true := by
    rw [List.forall_mem_map]
    exact fun p _ => decide_eq_true (encodePair_ne_nil p)
  rw [decode, encode, Utf8.encode_ofList, encodeChars_eq, letters_bytes (join_ascii hascii)]
  cases ps with
  | nil => rfl
  | cons p ps =>
    rw [Pieces.split_join (by simp) hseparate, List.filter_eq_self.mpr hkept, List.map_map]
    exact List.map_id'' decodePair_encodePair _

end AdocProse.Form
