import AdocProse.Json.Numeral
import AdocProse.Proofs.Number.Decimal
import AdocProse.Proofs.Number.Rounding
import AdocProse.Proofs.Text.Utf8
import Mathlib.Tactic.SplitIfs

/-! A printed natural number is scanned as a numeral. If it fits 64 bits it is read exactly, and else as a
number that does not fit them either. -/

namespace AdocProse.Json.Numeral

open Utf8 (bytes)

def printed (n : Nat) : Numeral :=
  ⟨false, Decimal.digits n, [], none⟩

/-- What follows a numeral does not continue it. -/
def Ends (rest : List UInt8) : Prop :=
  ∀ b ∈ rest.head?, digit? b = none ∧ Utf8.letter b ≠ '.' ∧ Utf8.letter b ≠ 'e' ∧ Utf8.letter b ≠ 'E'

lemma toChar_facts : ∀ d : Digit,
    String.utf8EncodeChar d.toChar = [UInt8.ofNat (48 + d.val)] ∧
    digit? (UInt8.ofNat (48 + d.val)) = some d := by
  decide

lemma bytes_toChar (ds : List Digit) :
    bytes (ds.map Digit.toChar) = ds.map fun d => UInt8.ofNat (48 + d.val) := by
  induction ds with
  | nil => rfl
  | cons d ds ih => rw [List.map_cons, Utf8.bytes_cons, (toChar_facts d).1, ih]; rfl

lemma scanDigits_written {ds : List Digit} (hne : ds ≠ []) {rest : List UInt8}
    (h : ∀ b ∈ rest.head?, digit? b = none) :
    scanDigits (bytes (ds.map Digit.toChar) ++ rest) = .ok (ds, rest) := by
  have hspan : Decimal.span digit? (bytes (ds.map Digit.toChar) ++ rest) = (ds, rest) := by
    rw [bytes_toChar]
    apply Decimal.span_append _ h
    rw [List.map_map]
    exact List.map_congr_left fun d _ => (toChar_facts d).2
  rw [scanDigits, hspan]
  cases ds with
  | nil => exact absurd rfl hne
  | cons d ds => rfl

lemma scanWhole_written {ds : List Digit} (hne : ds ≠ []) (hzero : ∀ es, ds = 0 :: es → es = [])
    {rest : List UInt8} (h : ∀ b ∈ rest.head?, digit? b = none) :
    scanWhole (bytes (ds.map Digit.toChar) ++ rest) = .ok (ds, rest) := by
  rw [scanWhole, scanDigits_written hne h]
  simp only [bind, Except.bind]
  split
  · next d es => exact absurd (hzero _ rfl) (by simp)
  · rfl

lemma scanWhole_printed (n : Nat) {rest : List UInt8} (h : ∀ b ∈ rest.head?, digit? b = none) :
    scanWhole (bytes (Decimal.chars n) ++ rest) = .ok (Decimal.digits n, rest) :=
  scanWhole_written (Decimal.digits_ne_nil n) (fun _ => Decimal.digits_cons_zero) h

lemma scanFraction_none {rest : List UInt8} (h : Ends rest) : scanFraction rest = .ok ([], rest) := by
  cases rest with
  | nil => rfl
  | cons b bs => rw [scanFraction, if_neg (h b rfl).2.1]

lemma scanExponent_none {rest : List UInt8} (h : Ends rest) :
    scanExponent rest = .ok (none, rest) := by
  cases rest with
  | nil => rfl
  | cons b bs =>
    obtain ⟨-, -, he, hE⟩ := h b rfl
    rw [scanExponent, if_neg (by simp [he, hE])]

lemma scan_printed (n : Nat) {rest : List UInt8} (h : Ends rest) :
    scan false (bytes (Decimal.chars n) ++ rest) = .ok (printed n, rest) := by
  rw [scan, scanWhole_printed n fun b hb => (h b hb).1]
  simp only [bind, Except.bind, scanFraction_none h, scanExponent_none h]
  rfl

lemma foldl_ge (ds : List Digit) (n : Nat) : n ≤ ds.foldl (fun n d => 10 * n + d.val) n := by
  induction ds generalizing n with
  | nil => exact Nat.le_refl n
  | cons d ds ih =>
    have h := ih (10 * n + d.val)
    rw [List.foldl_cons]
    omega

lemma absorb_all {ds : List Digit} {n : Nat}
    (h : ds.foldl (fun n d => 10 * n + d.val) n < UInt64.size) :
    absorb n ds = (ds.foldl (fun n d => 10 * n + d.val) n, []) := by
  induction ds generalizing n with
  | nil => rfl
  | cons d ds ih =>
    rw [List.foldl_cons] at h
    have hstep := foldl_ge ds (10 * n + d.val)
    rw [absorb, if_pos (by omega), ih h, List.foldl_cons]

lemma toNumber_printed {n : Nat} (h : n < UInt64.size) : (printed n).toNumber = .ok (.natural n) := by
  have hv : (Decimal.digits n).foldl (fun n d => 10 * n + d.val) 0 = n := Decimal.value_digits n
  have ha : absorb 0 (Decimal.digits n) = (n, []) := by rw [absorb_all (by omega), hv]
  simp only [toNumber, printed, ha, and_self, if_true, Bool.false_eq_true, if_false]

lemma absorb_large {ds : List Digit} {n : Nat} (hn : n < UInt64.size)
    (h : UInt64.size ≤ ds.foldl (fun n d => 10 * n + d.val) n) :
    ∃ m d rest, absorb n ds = (m, d :: rest) ∧ 1844674407370955161 ≤ m := by
  induction ds generalizing n with
  | nil => exact absurd hn (Nat.not_lt.mpr h)
  | cons d ds ih =>
    rw [absorb]
    split_ifs with hfits
    · exact ih hfits h
    · have hsize : UInt64.size = 18446744073709551616 := rfl
      have hd := d.isLt
      exact ⟨n, d, ds, rfl, by omega⟩

lemma scaled_large {n k : Nat} (hn : 1844674407370955161 ≤ n) (hk : 1 ≤ k) {x : Magnitude}
    (hx : scaled n k = some x) : UInt64.size ≤ x.floor := by
  rw [scaled, Option.bind_eq_bind, Option.bind_eq_some_iff] at hx
  obtain ⟨y, hy, hx⟩ := hx
  have hreaches := Magnitude.leading_reaches hn hy
  rw [if_pos (Int.natCast_nonneg k), Int.toNat_natCast, grow] at hx
  split_ifs at hx with hpower hzero
  · rw [Option.bind_eq_bind, Option.bind_eq_some_iff] at hx
    obtain ⟨z, hz, hx⟩ := hx
    have hproduct : Nat.pow 2 64 ≤ 1844674407370955264 * 10 := by decide +kernel
    exact (Magnitude.mul_reaches hreaches (Magnitude.power_reaches hk hz) hproduct hx).floor
  · rw [Magnitude.isZero, beq_iff_eq] at hzero
    rw [Magnitude.Reaches, hzero, Nat.zero_mul] at hreaches
    have hpos := Magnitude.two_pow_pos (-y.exponent).toNat
    omega

lemma toNumber_large {n : Nat} (h : UInt64.size ≤ n) :
    (∃ f, (printed n).toNumber = .error f) ∨
      ∃ x : Magnitude, (printed n).toNumber = .ok (.float ⟨false, x⟩) ∧ UInt64.size ≤ x.floor := by
  have hv : (Decimal.digits n).foldl (fun n d => 10 * n + d.val) 0 = n := Decimal.value_digits n
  rw [← hv] at h
  obtain ⟨m, d, rest, habsorb, hm⟩ := absorb_large (by decide) h
  cases hscaled : scaled m (rest.length + 1 : Nat) with
  | none =>
    rw [Int.natCast_succ] at hscaled
    exact .inl ⟨.malformed, by simp [toNumber, printed, habsorb, absorb, magnitude?, hscaled]⟩
  | some x =>
    have hlarge := scaled_large hm (Nat.le_add_left 1 _) hscaled
    rw [Int.natCast_succ] at hscaled
    exact .inr ⟨x, by simp [toNumber, printed, habsorb, absorb, magnitude?, hscaled], hlarge⟩

end AdocProse.Json.Numeral
