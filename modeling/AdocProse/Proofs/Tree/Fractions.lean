import AdocProse.Proofs.Number.Truncation
import AdocProse.Proofs.Tree.Offset

/-! An offset with a fraction is cut off at the point if it is given as a string. A number has been rounded
before, and only some numbers keep their whole part then. -/

namespace AdocProse

namespace Json.Numeral

/-- The whole number with these digits behind the point. -/
def fractional (n : Nat) (fraction : List Digit) : Numeral :=
  ⟨false, Decimal.digits n, fraction, none⟩

/-- The numeral is read as the magnitude nearest to what it writes. -/
def ReadNearest (x : Numeral) : Prop :=
  ∃ m, Magnitude.round (Decimal.value (x.whole ++ x.fraction)) (10 ^ x.fraction.length) = some m ∧
    x.toNumber = .ok (.float ⟨x.negative, m⟩)

lemma toNumber_fractional {n : Nat} {fraction : List Digit} (hne : fraction ≠ [])
    (h : Decimal.value (Decimal.digits n ++ fraction) < UInt64.size) {m : Magnitude}
    (hm : scaled (Decimal.value (Decimal.digits n ++ fraction)) (-(fraction.length : Int)) = some m) :
    (fractional n fraction).toNumber = .ok (.float ⟨false, m⟩) := by
  have hfold : Decimal.value (Decimal.digits n ++ fraction) =
      fraction.foldl (fun n d => 10 * n + d.val) n := by
    rw [Decimal.value, List.foldl_append]
    exact congrArg (List.foldl _ · fraction) (Decimal.value_digits n)
  have hwhole : absorb 0 (Decimal.digits n) = (n, []) := by
    have hvalue : (Decimal.digits n).foldl (fun n d => 10 * n + d.val) 0 = n := Decimal.value_digits n
    have hn := foldl_ge fraction n
    rw [absorb_all (by omega), hvalue]
  have hall : absorb n fraction = (Decimal.value (Decimal.digits n ++ fraction), []) := by
    rw [hfold] at h ⊢
    exact absorb_all h
  simp [toNumber, fractional, hwhole, hne, hall, magnitude?, hm]

lemma scaled_down {v k : Nat} (hpos : 0 < k) (hk : k ≤ 308) {x y : Magnitude}
    (hx : Magnitude.round v 1 = some x) (hy : Magnitude.round (Nat.pow 10 k) 1 = some y) :
    scaled v (-(k : Int)) = x.div y := by
  rw [scaled, hx, Option.bind_eq_bind, Option.bind_some, if_neg (by omega)]
  dsimp only
  rw [show (-(-(k : Int))).toNat = k by omega, show (k - 1) / 308 = 0 by omega, Nat.mul_zero,
    Nat.sub_zero, shrink, hy, Option.bind_eq_bind, Option.bind_some]

lemma readNearest_short {n : Nat} {fraction : List Digit} (hne : fraction ≠ [])
    (h : Decimal.value (Decimal.digits n ++ fraction) < 2 ^ 53) (hlength : fraction.length ≤ 22) :
    (fractional n fraction).ReadNearest := by
  generalize hvalue : Decimal.value (Decimal.digits n ++ fraction) = v at h
  have hpos : 0 < fraction.length := List.length_pos_of_ne_nil hne
  have hfive : 5 ^ fraction.length < Nat.pow 2 53 :=
    Nat.lt_of_le_of_lt (Nat.pow_le_pow_right (by decide) hlength) (by decide)
  have hten : 5 ^ fraction.length * Nat.pow 2 fraction.length = Nat.pow 10 fraction.length :=
    (Nat.mul_pow 5 2 _).symm
  obtain ⟨x, hx, hxexact⟩ := Magnitude.round_exact (a := v) (j := 0) h (by decide)
  obtain ⟨y, hy, hyexact⟩ := Magnitude.round_exact (j := fraction.length) hfive (by omega)
  rw [show Nat.pow 2 0 = 1 from rfl, Nat.mul_one] at hx hxexact
  rw [hten] at hy hyexact
  have htenpos : 0 < Nat.pow 10 fraction.length := Nat.pow_pos (by decide)
  have hdiv := Magnitude.div_exact hxexact hyexact htenpos
  obtain ⟨m, hm⟩ := Magnitude.round_some (Nat.ne_of_gt htenpos)
    (Nat.lt_of_lt_of_le h (Nat.le_mul_of_pos_left _ htenpos))
  refine ⟨m, ?_, toNumber_fractional hne ?_ ?_⟩
  · rw [← hm, ← hvalue]
    rfl
  · rw [hvalue]
    exact Nat.lt_trans h (by decide)
  · rw [hvalue, scaled_down hpos (by omega) hx hy, hdiv, hm]

end Json.Numeral

namespace Offset

open Json

lemma ofNumber_float {x : Numeral} {m : Magnitude} (hx : x.toNumber = .ok (.float ⟨false, m⟩)) {n room : Nat}
    (hn : n < limit) : ofValue (.number x) room = .ok n ↔ m.floor = n := by
  change (do ofNumber (← x.toNumber)) = _ ↔ _
  rw [hx]
  change ofNumber (.float ⟨false, m⟩) = _ ↔ _
  rw [ofNumber, ofFloat?]
  by_cases hm : m.floor < limit
  · simp [Binary64.isNegative, hm]
  · have hne : m.floor ≠ n := by omega
    simp [Binary64.isNegative, hm, hne]

lemma nearest_cut_off {n : Nat} (hn : n < limit) {fraction : List Digit}
    (hnearest : (Numeral.fractional n fraction).ReadNearest) (room : Nat) :
    ofValue (.number (.fractional n fraction)) room = .ok n ↔
      Magnitude.Keeps n (Decimal.value fraction) (10 ^ fraction.length) := by
  obtain ⟨m, hround, hread⟩ := hnearest
  rw [ofNumber_float hread hn]
  apply Magnitude.floor_round_iff (Decimal.value_lt fraction)
  change Magnitude.round (Decimal.value (Decimal.digits n ++ fraction)) _ = _ at hround
  rwa [Decimal.value_concat, Decimal.value_digits] at hround

/-- A string is cut off at its point. So is a number, if it has at most 53 binary places and 22 digits behind
its point, or in general if rounding keeps its whole part. -/
theorem fraction_cut_off {n : Nat} (hn : n < limit) {fraction : List Digit} (hne : fraction ≠ [])
    (room : Nat) :
    (∀ ps, StringLit.text ⟨ps, none⟩ =
        .ok (String.ofList (Decimal.chars n ++ '.' :: fraction.map Digit.toChar)) →
      ofValue (.string ⟨ps, none⟩) room = .ok n) ∧
    ((Numeral.fractional n fraction).ReadNearest →
      (ofValue (.number (.fractional n fraction)) room = .ok n ↔
        Magnitude.Keeps n (Decimal.value fraction) (10 ^ fraction.length))) ∧
    (Decimal.value (Decimal.digits n ++ fraction) < 2 ^ 53 → fraction.length ≤ 22 →
      ofValue (.number (.fractional n fraction)) room = .ok n) := by
  refine ⟨fun ps hps => ?_, fun hnearest => nearest_cut_off hn hnearest room, fun hfew hlength => ?_⟩
  · have hspelling : Spelling n (.string ps) :=
      .quoted [] 0 ('.' :: fraction.map Digit.toChar) (.inl rfl) (.inr ⟨fraction, rfl⟩) hps
    exact hspelling.read.mpr ⟨hn, rfl⟩
  · have hten : 10 ^ 1 ≤ 10 ^ fraction.length :=
      Nat.pow_le_pow_right (by decide) (List.length_pos_of_ne_nil hne)
    refine (nearest_cut_off hn (Numeral.readNearest_short hne hfew hlength) room).mpr ?_
    rw [Decimal.value_concat, Decimal.value_digits] at hfew
    exact Magnitude.keeps_of_few (Decimal.value_lt fraction) (by omega) hfew

theorem fraction_cut_off_twelve :
    ofValue (.string (StringLit.printed "12.9")) 0 = .ok 12 ∧
    ofValue (.number (.fractional 12 [9])) 0 = .ok 12 ∧ Magnitude.Keeps 12 9 10 := by
  obtain ⟨htext, hnearest, hnumber⟩ :=
    fraction_cut_off (show 12 < limit by decide) (List.cons_ne_nil (9 : Digit) []) 0
  have hchars : "12.9" = String.ofList (Decimal.chars 12 ++ '.' :: [(9 : Digit)].map Digit.toChar) := by
    have hdigits : Decimal.digits 12 = [1, 2] := by simp [Decimal.digits]
    rw [Decimal.chars, hdigits]
    rfl
  have hfew : Decimal.value (Decimal.digits 12 ++ [9]) < 2 ^ 53 := by
    rw [Decimal.value_concat, Decimal.value_digits]
    decide
  have hread := hnumber hfew (by decide)
  have hshort := Numeral.readNearest_short (List.cons_ne_nil (9 : Digit) []) hfew (by decide)
  refine ⟨htext _ ?_, hread, (hnearest hshort).mp hread⟩
  rw [← hchars]
  exact StringLit.text_printed "12.9"

/-- Two spellings of one number are different offsets. -/
theorem nines_carried_to_one :
    (Numeral.fractional 0 (List.replicate 17 9)).ReadNearest ∧
    ofValue (.number (.fractional 0 (List.replicate 17 9))) 0 = .ok 1 ∧
    ofValue (.string (StringLit.printed "0.99999999999999999")) 0 = .ok 0 := by
  have hvalue : Decimal.value (Decimal.digits 0 ++ List.replicate 17 9) = 99999999999999999 := by
    rw [Decimal.value_concat, Decimal.value_digits]
    rfl
  have hscaled : Numeral.scaled 99999999999999999 (-17) = some ⟨4503599627370496, -52⟩ := by
    have hround : Magnitude.round 99999999999999999 1 = some ⟨6250000000000000, 4⟩ := rfl
    have hpower : Magnitude.round (Nat.pow 10 17) 1 = some ⟨6250000000000000, 4⟩ := rfl
    exact Numeral.scaled_down (k := 17) (by decide) (by decide) hround hpower
  have hread : (Numeral.fractional 0 (List.replicate 17 9)).toNumber =
      .ok (.float ⟨false, ⟨4503599627370496, -52⟩⟩) := by
    apply Numeral.toNumber_fractional (by decide)
    · rw [hvalue]
      decide
    · rw [hvalue]
      exact hscaled
  refine ⟨⟨⟨4503599627370496, -52⟩, ?_, hread⟩, (ofNumber_float hread (by decide)).mpr rfl, rfl⟩
  change Magnitude.round (Decimal.value (Decimal.digits 0 ++ List.replicate 17 9)) (10 ^ 17) = _
  rw [hvalue]
  rfl

end Offset

end AdocProse
