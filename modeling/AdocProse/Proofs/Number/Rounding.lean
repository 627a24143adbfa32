import AdocProse.Proofs.Number.Places

/-! Rounding does not take a number below a power of two that it had reached. -/

namespace AdocProse.Magnitude

def Reaches (x : Magnitude) (n : Nat) : Prop :=
  n * Nat.pow 2 (-x.exponent).toNat ≤ x.mantissa * Nat.pow 2 x.exponent.toNat

lemma Reaches.floor {x : Magnitude} {n : Nat} (h : x.Reaches n) : n ≤ x.floor := by
  rw [Magnitude.floor, Nat.le_div_iff_mul_le (two_pow_pos _)]
  exact h

lemma Reaches.mono {x : Magnitude} {n m : Nat} (h : x.Reaches n) (hm : m ≤ n) : x.Reaches m :=
  Nat.le_trans (Nat.mul_le_mul_right _ hm) h

lemma div_le_nearest (n d : Nat) : n / d ≤ nearest n d := by
  rw [nearest]
  split
  · exact Nat.le_refl _
  · split
    · exact Nat.le_succ _
    · split
      · exact Nat.le_refl _
      · exact Nat.le_succ _

lemma lastPlace_full {n d e : Nat} (hn : n ≠ 0) (hd : d ≠ 0) (he : lastPlace n d = e) :
    d * Nat.pow 2 e * Nat.pow 2 52 ≤ n := by
  have hlast := isLastPlace hn hd
  rw [he] at hlast
  have hfull := hlast.full.resolve_left (by omega)
  rwa [above_iff (i := e + 52) (j := 0) (by omega), two_pow_add, ← Nat.mul_assoc,
    show Nat.pow 2 0 = 1 from rfl, Nat.mul_one] at hfull

/-- A mantissa that grew to one binary place more is the same magnitude one place up. -/
lemma Reaches.carry {e : Int} {n : Nat} (h : (⟨Nat.pow 2 53, e⟩ : Magnitude).Reaches n) :
    (⟨Nat.pow 2 52, e + 1⟩ : Magnitude).Reaches n := by
  rw [Reaches] at h ⊢
  dsimp only at h ⊢
  by_cases he : 0 ≤ e
  · rw [show (-e).toNat = 0 by omega] at h
    rw [show (-(e + 1)).toNat = 0 by omega, show (e + 1).toNat = 1 + e.toNat by omega, two_pow_add,
      ← Nat.mul_assoc]
    exact h
  · rw [show (-e).toNat = (-(e + 1)).toNat + 1 by omega, show e.toNat = 0 by omega, two_pow_add,
      ← Nat.mul_assoc] at h
    rw [show (e + 1).toNat = 0 by omega]
    have h53 : Nat.pow 2 53 = Nat.pow 2 52 * Nat.pow 2 1 := rfl
    rw [h53, Nat.mul_right_comm (Nat.pow 2 52)] at h
    exact Nat.le_of_mul_le_mul_right h (two_pow_pos 1)

lemma Reaches.rounded {n d k : Nat} (hn : n ≠ 0)
    (h : (⟨nearest (n * Nat.pow 2 (-lastPlace n d).toNat) (d * Nat.pow 2 (lastPlace n d).toNat),
      lastPlace n d⟩ : Magnitude).Reaches k) {x : Magnitude} (hx : round n d = some x) : x.Reaches k := by
  rw [round, if_neg hn] at hx
  dsimp only at hx
  split at hx
  · next hcarry =>
    obtain ⟨-, hx⟩ := Option.ite_none_right_eq_some.mp hx
    rw [hcarry] at h
    rw [← Option.some.inj hx]
    exact h.carry
  · obtain ⟨-, hx⟩ := Option.ite_none_right_eq_some.mp hx
    rw [← Option.some.inj hx]
    exact h

lemma round_reaches {n d p : Nat} (hd : d ≠ 0) (h : d * Nat.pow 2 p ≤ n) {x : Magnitude}
    (hx : round n d = some x) : x.Reaches (Nat.pow 2 p) := by
  have hpos : 0 < d := Nat.pos_of_ne_zero hd
  have hn : n ≠ 0 := Nat.ne_of_gt (Nat.lt_of_lt_of_le (Nat.mul_pos hpos (two_pow_pos p)) h)
  refine Reaches.rounded hn ?_ hx
  generalize he : lastPlace n d = e
  rw [Reaches]
  dsimp only
  have hnearest := div_le_nearest (n * Nat.pow 2 (-e).toNat) (d * Nat.pow 2 e.toNat)
  by_cases hneg : e ≤ 0
  · rw [show e.toNat = 0 by omega, show Nat.pow 2 0 = 1 from rfl, Nat.mul_one] at hnearest ⊢
    rw [Nat.mul_one]
    refine Nat.le_trans ?_ hnearest
    rw [Nat.le_div_iff_mul_le hpos, Nat.mul_right_comm, Nat.mul_comm (Nat.pow 2 p)]
    exact Nat.mul_le_mul_right _ h
  · obtain ⟨k, rfl⟩ : ∃ k : Nat, e = k := ⟨e.toNat, by omega⟩
    rw [show (-(k : Int)).toNat = 0 by omega, Int.toNat_natCast, show Nat.pow 2 0 = 1 from rfl,
      Nat.mul_one] at hnearest ⊢
    rw [Nat.mul_one]
    have hquotient : ∀ m, d * Nat.pow 2 k * m ≤ n → m * Nat.pow 2 k ≤
        nearest n (d * Nat.pow 2 k) * Nat.pow 2 k := by
      intro m hm
      refine Nat.mul_le_mul_right _ (Nat.le_trans ?_ hnearest)
      rw [Nat.le_div_iff_mul_le (Nat.mul_pos hpos (two_pow_pos k)), Nat.mul_comm]
      exact hm
    by_cases hk : k ≤ p
    · have hp : Nat.pow 2 p = Nat.pow 2 (p - k) * Nat.pow 2 k := by
        rw [← two_pow_add, Nat.sub_add_cancel hk]
      rw [hp]
      refine hquotient _ ?_
      rw [Nat.mul_assoc, Nat.mul_comm (Nat.pow 2 k), ← hp]
      exact h
    · refine Nat.le_trans ?_ (hquotient _ (lastPlace_full hn hd he))
      rw [← two_pow_add]
      exact two_pow_le (by omega)

lemma mul_reaches {x y z : Magnitude} {n m p : Nat} (hx : x.Reaches n) (hy : y.Reaches m)
    (hp : Nat.pow 2 p ≤ n * m) (hz : x.mul y = some z) : z.Reaches (Nat.pow 2 p) := by
  rw [mul, roundScaled, Nat.one_mul] at hz
  refine round_reaches (Nat.ne_of_gt (two_pow_pos _)) ?_ hz
  have hplaces : (-(x.exponent + y.exponent)).toNat + (x.exponent.toNat + y.exponent.toNat) =
      (x.exponent + y.exponent).toNat + ((-x.exponent).toNat + (-y.exponent).toNat) := by omega
  have hscale := congrArg (Nat.pow 2) hplaces
  simp only [two_pow_add] at hscale
  rw [Reaches] at hx hy
  refine Nat.le_of_mul_le_mul_right ?_
    (Nat.mul_pos (two_pow_pos (-x.exponent).toNat) (two_pow_pos (-y.exponent).toNat))
  have hproduct := Nat.mul_le_mul hx hy
  have hbelow := Nat.mul_le_mul_right (Nat.pow 2 (-x.exponent).toNat * Nat.pow 2 (-y.exponent).toNat) hp
  generalize Nat.pow 2 p = q at *
  generalize Nat.pow 2 (-x.exponent).toNat = xd at *
  generalize Nat.pow 2 (-y.exponent).toNat = yd at *
  generalize Nat.pow 2 x.exponent.toNat = xu at *
  generalize Nat.pow 2 y.exponent.toNat = yu at *
  generalize Nat.pow 2 (-(x.exponent + y.exponent)).toNat = d at *
  generalize Nat.pow 2 (x.exponent + y.exponent).toNat = u at *
  calc d * q * (xd * yd)
    _ = d * (q * (xd * yd)) := by ac_rfl
    _ ≤ d * (n * m * (xd * yd)) := Nat.mul_le_mul_left d hbelow
    _ = d * (n * xd * (m * yd)) := by ac_rfl
    _ ≤ d * (x.mantissa * xu * (y.mantissa * yu)) := Nat.mul_le_mul_left d hproduct
    _ = x.mantissa * y.mantissa * (d * (xu * yu)) := by ac_rfl
    _ = x.mantissa * y.mantissa * u * (xd * yd) := by rw [hscale]; ac_rfl

lemma power_reaches {k : Nat} (hk : 1 ≤ k) {x : Magnitude} (hx : round (Nat.pow 10 k) 1 = some x) :
    x.Reaches 10 := by
  by_cases hone : k = 1
  · subst hone
    have hten : round (Nat.pow 10 1) 1 = some ⟨5629499534213120, -49⟩ := by decide +kernel
    rw [hten, Option.some.injEq] at hx
    subst hx
    exact Nat.le_refl (10 * Nat.pow 2 49)
  · have hpower : 1 * Nat.pow 2 6 ≤ Nat.pow 10 k := by
      have h := Nat.pow_le_pow_right (n := 10) (by decide) (show 2 ≤ k by omega)
      exact Nat.le_trans (by decide) h
    exact (round_reaches (by decide) hpower hx).mono (by decide)

/-- The leading digits of a number past 64 bits are rounded up, so ten times that is past 64 bits. -/
lemma leading_reaches {m : Nat} (h : 1844674407370955161 ≤ m) {x : Magnitude} (hx : round m 1 = some x) :
    x.Reaches 1844674407370955264 := by
  by_cases hlarge : Nat.pow 2 61 ≤ m
  · exact (round_reaches (by decide) (by rwa [Nat.one_mul]) hx).mono (by decide)
  · have hbound : m < 2305843009213693952 := Nat.lt_of_not_le hlarge
    have hlog : m.log2 = 60 := (Nat.log2_eq_iff (by omega)).mpr ⟨by omega, hbound⟩
    have hone : (1 : Nat).log2 = 0 := rfl
    have hfull : 1 * Nat.pow 2 7 * Nat.pow 2 53 ≤ m * Nat.pow 2 0 := by
      have hsixty : 1 * Nat.pow 2 7 * Nat.pow 2 53 = 1152921504606846976 := rfl
      rw [hsixty, show Nat.pow 2 0 = 1 from rfl, Nat.mul_one]
      omega
    have hplace : lastPlace m 1 = 8 := by
      rw [lastPlace, hlog, hone]
      exact if_pos hfull
    have hnearest : 7205759403792794 ≤ nearest m 256 := by
      rw [nearest]
      split
      · omega
      · split
        · omega
        · split <;> omega
    refine Reaches.rounded (by omega) ?_ hx
    rw [hplace, Reaches]
    change 1844674407370955264 * 1 ≤ nearest (m * 1) 256 * 256
    rw [Nat.mul_one, Nat.mul_one]
    omega

end AdocProse.Magnitude
