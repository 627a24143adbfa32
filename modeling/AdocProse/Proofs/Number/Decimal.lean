import AdocProse.Number.Decimal
import Mathlib.Data.List.Induction
import Mathlib.Tactic.Lemma
import Mathlib.Tactic.Ring

/-! The digits of a number write that number, without a zero before another digit. -/

namespace AdocProse.Decimal

lemma digits_small {n : Nat} (h : n < 10) : digits n = [⟨n, h⟩] := by
  rw [digits, dif_pos h]

lemma digits_large {n : Nat} (h : ¬n < 10) :
    digits n = digits (n / 10) ++ [⟨n % 10, Nat.mod_lt n (by decide)⟩] := by
  rw [digits, dif_neg h]

lemma value_append (ds : List Digit) (d : Digit) : value (ds ++ [d]) = 10 * value ds + d.val := by
  simp only [value, List.foldl_append, List.foldl_cons, List.foldl_nil]

lemma value_concat (ds es : List Digit) : value (ds ++ es) = value ds * 10 ^ es.length + value es := by
  induction es using List.reverseRecOn with
  | nil => simp [value]
  | append_singleton es e ih =>
    rw [← List.append_assoc, value_append, ih, value_append, List.length_append, List.length_singleton,
      pow_succ]
    ring

lemma value_lt (ds : List Digit) : value ds < 10 ^ ds.length := by
  induction ds using List.reverseRecOn with
  | nil => decide
  | append_singleton ds d ih =>
    have hd := d.isLt
    rw [value_append, List.length_append, List.length_singleton, pow_succ]
    omega

lemma value_zeros (k : Nat) : value (List.replicate k 0) = 0 := by
  induction k with
  | zero => rfl
  | succ k ih => exact ih

lemma value_digits (n : Nat) : value (digits n) = n := by
  induction n using Nat.strongRecOn with
  | ind n ih =>
    by_cases h : n < 10
    · rw [digits_small h]
      simp [value]
    · rw [digits_large h, value_append, ih (n / 10) (by omega)]
      exact Nat.div_add_mod n 10

lemma digits_ne_nil (n : Nat) : digits n ≠ [] := by
  by_cases h : n < 10
  · simp [digits_small h]
  · simp [digits_large h]

lemma digits_cons_zero {n : Nat} {ds : List Digit} (h : digits n = 0 :: ds) : ds = [] := by
  induction n using Nat.strongRecOn generalizing ds with
  | ind n ih =>
    by_cases hn : n < 10
    · rw [digits_small hn] at h
      exact (List.cons.inj h).2.symm
    · rw [digits_large hn] at h
      cases hq : digits (n / 10) with
      | nil => exact absurd hq (digits_ne_nil _)
      | cons d es =>
        rw [hq, List.cons_append] at h
        obtain ⟨rfl, -⟩ := List.cons.inj h
        -- a first digit zero would make the quotient zero
        have hes := ih (n / 10) (by omega) hq
        have hv := value_digits (n / 10)
        rw [hq, hes] at hv
        simp only [value, List.foldl_cons, List.foldl_nil] at hv
        have hz : ((0 : Digit) : Nat) = 0 := rfl
        omega

lemma span_append {α : Type} {digit? : α → Option Digit} {as : List α} {ds : List Digit}
    (h : as.map digit? = ds.map some) {rest : List α} (hrest : ∀ a ∈ rest.head?, digit? a = none) :
    span digit? (as ++ rest) = (ds, rest) := by
  induction as generalizing ds with
  | nil =>
    obtain rfl : ds = [] := by simpa using h.symm
    cases rest with
    | nil => rfl
    | cons a rest =>
      have ha := hrest a (by simp)
      simp only [List.nil_append, span, ha]
  | cons a as ih =>
    cases ds with
    | nil => simp at h
    | cons d ds =>
      simp only [List.map_cons, List.cons.injEq] at h
      simp only [List.cons_append, span, h.1, ih h.2]

lemma toChar_eq_digitChar : ∀ d : Digit, d.toChar = d.val.digitChar := by
  decide

lemma chars_eq_toDigits (n : Nat) : chars n = Nat.toDigits 10 n := by
  induction n using Nat.strongRecOn with
  | ind n ih =>
    rw [Nat.toDigits_eq_if (by decide)]
    split_ifs with h
    · rw [chars, digits_small h, List.map_singleton, toChar_eq_digitChar]
    · rw [← ih (n / 10) (by omega), chars, digits_large h, List.map_append, List.map_singleton,
        toChar_eq_digitChar, chars]

lemma text_eq_toString (n : Nat) : text n = toString n := by
  rw [text, chars_eq_toDigits, Nat.toString_eq_ofList_toDigits]

lemma ofChar?_toChar : ∀ d : Digit, Digit.ofChar? d.toChar = some d := by
  decide

lemma toChar_of_ofChar? {c : Char} {d : Digit} (h : Digit.ofChar? c = some d) : d.toChar = c := by
  rw [Digit.ofChar?] at h
  split at h
  · next hc =>
    rw [← Option.some.inj h, Digit.toChar, Nat.add_sub_cancel' hc.1, Char.ofNat_toNat]
  · exact absurd h (by simp)

lemma append_of_span {cs rest : List Char} {ds : List Digit} (h : span Digit.ofChar? cs = (ds, rest)) :
    cs = ds.map Digit.toChar ++ rest := by
  induction cs generalizing ds with
  | nil =>
    obtain ⟨rfl, rfl⟩ := Prod.mk.inj h
    rfl
  | cons c cs ih =>
    rw [span] at h
    split at h
    · obtain ⟨rfl, rfl⟩ := Prod.mk.inj h
      rfl
    · next d hd =>
      obtain ⟨rfl, hrest⟩ := Prod.mk.inj h
      rw [List.map_cons, List.cons_append, toChar_of_ofChar? hd, ← ih (Prod.ext rfl hrest)]

lemma span_chars (n : Nat) {rest : List Char} (hrest : ∀ c ∈ rest.head?, Digit.ofChar? c = none) :
    span Digit.ofChar? (chars n ++ rest) = (digits n, rest) := by
  apply span_append _ hrest
  rw [chars, List.map_map]
  exact List.map_congr_left fun d _ => ofChar?_toChar d

lemma chars_append_inj {n m : Nat} {rest rest' : List Char}
    (hrest : ∀ c ∈ rest.head?, Digit.ofChar? c = none)
    (hrest' : ∀ c ∈ rest'.head?, Digit.ofChar? c = none)
    (h : chars n ++ rest = chars m ++ rest') : n = m ∧ rest = rest' := by
  have hspan := congrArg (span Digit.ofChar?) h
  rw [span_chars n hrest, span_chars m hrest', Prod.mk.injEq] at hspan
  exact ⟨by rw [← value_digits n, hspan.1, value_digits], hspan.2⟩

lemma isSome_of_mem_chars {c : Char} {n : Nat} (h : c ∈ chars n) : (Digit.ofChar? c).isSome = true := by
  obtain ⟨d, -, rfl⟩ := List.mem_map.mp h
  rw [ofChar?_toChar, Option.isSome_some]

end AdocProse.Decimal
