import AdocProse.Proofs.Json.Grammar
import AdocProse.Proofs.Json.Numeral
import AdocProse.Proofs.Json.StringLit
import AdocProse.Tree.Offset

/-! A natural number is read as the same offset from each way of writing it, and refused in each of them
if it does not fit 64 bits. -/

namespace AdocProse.Offset

open Json

lemma toChar_plain : ∀ d : Digit,
    d.toChar ≠ '+' ∧ d.toChar ≠ '.' ∧ d.toChar ≠ 'e' ∧ d.toChar ≠ 'E' := by
  decide

lemma before_point {front : List Char} (hfront : '.' ∉ front) (ds : List Digit) :
    ∀ c ∈ front ++ ds.map Digit.toChar, (c != '.') = true := by
  intro c hc
  rw [bne_iff_ne]
  rcases List.mem_append.mp hc with hc | hc
  · exact fun hpoint => hfront (hpoint ▸ hc)
  · obtain ⟨d, -, rfl⟩ := List.mem_map.mp hc
    exact (toChar_plain d).2.1

lemma ofInteger?_digits {plus : List Char} (hplus : plus = [] ∨ plus = ['+']) {ds : List Digit}
    (hne : ds ≠ []) : ofInteger? (plus ++ ds.map Digit.toChar) =
      if Decimal.value ds < limit then some (Decimal.value ds) else none := by
  obtain ⟨d, ds, rfl⟩ := List.exists_cons_of_ne_nil hne
  have hspan : Decimal.span Digit.ofChar? ((d :: ds).map Digit.toChar) = (d :: ds, []) := by
    have hdigits : ((d :: ds).map Digit.toChar).map Digit.ofChar? = (d :: ds).map some := by
      rw [List.map_map]
      exact List.map_congr_left fun d _ => Decimal.ofChar?_toChar d
    have happend : Decimal.span Digit.ofChar? ((d :: ds).map Digit.toChar ++ []) = (d :: ds, []) :=
      Decimal.span_append hdigits (by simp)
    rwa [List.append_nil] at happend
  rcases hplus with rfl | rfl
  · rw [List.map_cons] at hspan
    rw [List.nil_append, List.map_cons, ofInteger?, hspan]
    intro cs hplus
    exact absurd (List.cons.inj hplus).1 (toChar_plain d).1
  · rw [List.singleton_append, ofInteger?, hspan]

lemma ofChars?_digits {plus : List Char} (hplus : plus = [] ∨ plus = ['+']) {ds : List Digit}
    (hne : ds ≠ []) {fraction : List Char}
    (hfraction : fraction = [] ∨ ∃ es : List Digit, fraction = '.' :: es.map Digit.toChar) :
    ofChars? (plus ++ ds.map Digit.toChar ++ fraction) =
      if Decimal.value ds < limit then some (Decimal.value ds) else none := by
  have hplain : ∀ es : List Digit, (es.map Digit.toChar).any (fun c => c == 'e' || c == 'E') = false := by
    intro es
    simp [toChar_plain]
  have hunmarked : plus.any (fun c => c == 'e' || c == 'E') = false := by
    rcases hplus with rfl | rfl <;> rfl
  have hexponent : (plus ++ ds.map Digit.toChar ++ fraction).any (fun c => c == 'e' || c == 'E') =
      false := by
    rw [List.any_append, List.any_append, hunmarked, hplain]
    rcases hfraction with rfl | ⟨es, rfl⟩
    · rfl
    · rw [List.any_cons, hplain]
      rfl
  have hbefore : ∀ c ∈ plus ++ ds.map Digit.toChar, (c != '.') = true := by
    apply before_point
    rcases hplus with rfl | rfl <;> decide
  have hwhole : (plus ++ ds.map Digit.toChar ++ fraction).takeWhile (· != '.') =
      plus ++ ds.map Digit.toChar := by
    rw [List.takeWhile_append_of_pos hbefore]
    rcases hfraction with rfl | ⟨es, rfl⟩ <;> simp
  rw [ofChars?, hexponent, hwhole]
  exact ofInteger?_digits hplus hne

/-- The usual ways of writing a natural number as an offset. -/
inductive Form (n : Nat) : Term → Prop
  | integer : Form n (.number (.printed n))
  | string {ps : List Piece} (h : StringLit.text ⟨ps, none⟩ = .ok (Decimal.text n)) : Form n (.string ps)
  | point {ps : List Piece} (h : StringLit.text ⟨ps, none⟩ = .ok (Decimal.text n ++ ".0")) :
    Form n (.string ps)

/-- A spelling of a natural number as an offset: bare, or in quotes, and then also with a plus sign, with
zeros in front of it or with a fraction. -/
inductive Spelling (n : Nat) : Term → Prop
  | bare : Spelling n (.number (.printed n))
  | quoted {ps : List Piece} (plus : List Char) (zeros : Nat) (fraction : List Char)
      (hplus : plus = [] ∨ plus = ['+'])
      (hfraction : fraction = [] ∨ ∃ ds : List Digit, fraction = '.' :: ds.map Digit.toChar)
      (h : StringLit.text ⟨ps, none⟩ =
        .ok (String.ofList (plus ++ (List.replicate zeros '0' ++ Decimal.chars n) ++ fraction))) :
    Spelling n (.string ps)

lemma Form.spelling {n : Nat} {v : Term} (h : Form n v) : Spelling n v := by
  cases h with
  | integer => exact .bare
  | string h =>
    refine .quoted [] 0 [] (.inl rfl) (.inl rfl) ?_
    rw [h, List.append_nil]
    rfl
  | point h =>
    refine .quoted [] 0 ['.', '0'] (.inl rfl) (.inr ⟨[0], rfl⟩) ?_
    rw [h, String.ofList_append]
    rfl

lemma ofText_spelled {n zeros : Nat} {plus fraction : List Char} (hplus : plus = [] ∨ plus = ['+'])
    (hfraction : fraction = [] ∨ ∃ ds : List Digit, fraction = '.' :: ds.map Digit.toChar) {m : Nat} :
    ofText (String.ofList (plus ++ (List.replicate zeros '0' ++ Decimal.chars n) ++ fraction)) = .ok m ↔
      n < limit ∧ m = n := by
  have hne : List.replicate zeros 0 ++ Decimal.digits n ≠ [] :=
    List.append_ne_nil_of_right_ne_nil _ (Decimal.digits_ne_nil n)
  have hdigits : List.replicate zeros '0' ++ Decimal.chars n =
      (List.replicate zeros 0 ++ Decimal.digits n).map Digit.toChar := by
    rw [List.map_append, List.map_replicate]
    rfl
  have hvalue : Decimal.value (List.replicate zeros 0 ++ Decimal.digits n) = n := by
    rw [Decimal.value_concat, Decimal.value_zeros, Decimal.value_digits, Nat.zero_mul, Nat.zero_add]
  rw [ofText, ofString?, String.toList_ofList, hdigits, ofChars?_digits hplus hne hfraction, hvalue]
  by_cases hn : n < limit <;> simp [hn, eq_comm]

lemma Spelling.read {n : Nat} {v : Term} (h : Spelling n v) {m room : Nat} :
    ofValue v.value room = .ok m ↔ n < limit ∧ m = n := by
  cases h with
  | bare =>
    change (do ofNumber (← (Numeral.printed n).toNumber)) = _ ↔ _
    by_cases hn : n < limit
    · rw [Numeral.toNumber_printed hn]
      simp [bind, Except.bind, ofNumber, hn, eq_comm]
    · rcases Numeral.toNumber_large (Nat.le_of_not_lt hn) with ⟨f, hf⟩ | ⟨x, hx, hlarge⟩
      · simp [hf, bind, Except.bind, hn]
      · have hfloor : ¬x.floor < limit := Nat.not_lt.mpr hlarge
        simp [hx, bind, Except.bind, ofNumber, ofFloat?, Binary64.isNegative, hfloor, hn]
  | quoted plus zeros fraction hplus hfraction h =>
    change (do ofText (← StringLit.text _)) = _ ↔ _
    rw [h]
    exact ofText_spelled hplus hfraction

lemma Form.read {n : Nat} {v : Term} (h : Form n v) {m room : Nat} :
    ofValue v.value room = .ok m ↔ n < limit ∧ m = n :=
  h.spelling.read

/-- All spellings of a number are the same offset, and none of them is an offset from the limit on. -/
theorem Spelling.decoded {n : Nat} {v : Term} (h : Spelling n v) (room : Nat) :
    (n < limit → ofValue v.value room = .ok n) ∧
    (limit ≤ n → ∃ f, ofValue v.value room = .error f) := by
  refine ⟨fun hn => h.read.mpr ⟨hn, rfl⟩, fun hlarge => ?_⟩
  cases hv : ofValue v.value room with
  | error f => exact ⟨f, rfl⟩
  | ok m => exact absurd (h.read.mp hv).1 (Nat.not_lt.mpr hlarge)

theorem Spelling.decoded_at_limit :
    ofValue (.string (StringLit.printed "+0018446744073709551615.5")) 0 = .ok 18446744073709551615 ∧
    ∃ f, ofValue (.string (StringLit.printed "018446744073709551616.")) 0 = .error f := by
  have hbelow : "+0018446744073709551615.5" = String.ofList (['+'] ++
      (List.replicate 2 '0' ++ Decimal.chars 18446744073709551615) ++ ['.', '5']) := by
    have hdigits : Decimal.digits 18446744073709551615 =
        [1, 8, 4, 4, 6, 7, 4, 4, 0, 7, 3, 7, 0, 9, 5, 5, 1, 6, 1, 5] := by simp [Decimal.digits]
    rw [Decimal.chars, hdigits]
    rfl
  have hpast : "018446744073709551616." = String.ofList ([] ++
      (List.replicate 1 '0' ++ Decimal.chars 18446744073709551616) ++ ['.']) := by
    have hdigits : Decimal.digits 18446744073709551616 =
        [1, 8, 4, 4, 6, 7, 4, 4, 0, 7, 3, 7, 0, 9, 5, 5, 1, 6, 1, 6] := by simp [Decimal.digits]
    rw [Decimal.chars, hdigits]
    rfl
  have hmaximum : Spelling 18446744073709551615
      (.string (StringLit.printed "+0018446744073709551615.5").pieces) := by
    refine .quoted ['+'] 2 ['.', '5'] (.inr rfl) (.inr ⟨[5], rfl⟩) ?_
    rw [← hbelow]
    exact StringLit.text_printed _
  have hlimit : Spelling 18446744073709551616
      (.string (StringLit.printed "018446744073709551616.").pieces) := by
    refine .quoted [] 1 ['.'] (.inl rfl) (.inr ⟨[], rfl⟩) ?_
    rw [← hpast]
    exact StringLit.text_printed _
  exact ⟨(Spelling.decoded hmaximum 0).1 (by decide), (Spelling.decoded hlimit 0).2 (by decide)⟩

end AdocProse.Offset
