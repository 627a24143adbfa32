import AdocProse.Proofs.Number.Rounding
import Mathlib.Tactic.Linarith

/-! Rounding does not depend on the terms of a fraction. Numbers with no more than 53 binary places are not
changed by it, so the quotient of two of them is rounded only once. -/

namespace AdocProse.Magnitude

variable {n d : Nat}

lemma nearest_scale {c : Nat} (hc : 0 < c) : nearest (n * c) (d * c) = nearest n d := by
  have htwice : 2 * (n % d * c) = 2 * (n % d) * c := (Nat.mul_assoc _ _ _).symm
  rw [nearest, nearest, Nat.mul_div_mul_right _ _ hc, Nat.mul_mod_mul_right, htwice]
  simp only [Nat.mul_lt_mul_right hc]

lemma nearest_cross {n' d' : Nat} (hd : 0 < d) (hd' : 0 < d') (h : n * d' = n' * d) :
    nearest n d = nearest n' d' := by
  rw [← nearest_scale hd', h, Nat.mul_comm d, nearest_scale hd]

lemma round_cross {n' d' : Nat} (hd : 0 < d) (hd' : 0 < d') (h : n * d' = n' * d) :
    round n d = round n' d' := by
  by_cases hn : n = 0
  · obtain rfl : n' = 0 := by
      rw [hn, Nat.zero_mul] at h
      exact (Nat.mul_eq_zero.mp h.symm).resolve_right (Nat.ne_of_gt hd)
    rw [hn, round, round, if_pos rfl, if_pos rfl]
  · have hn' : n' ≠ 0 := by
      rintro rfl
      rw [Nat.zero_mul] at h
      exact hn ((Nat.mul_eq_zero.mp h).resolve_right (Nat.ne_of_gt hd'))
    have hplace : lastPlace n d = lastPlace n' d' := by
      have hlast := isLastPlace hn' (Nat.ne_of_gt hd')
      refine IsLastPlace.lastPlace_eq ⟨hlast.lowest, ?_, ?_⟩ hn (Nat.ne_of_gt hd)
      · rw [above_cross hd hd' h]
        exact hlast.below
      · rw [above_cross hd hd' h]
        exact hlast.full
    rw [round, round, if_neg hn, if_neg hn', hplace]
    dsimp only
    generalize lastPlace n' d' = e
    have hscaled : n * Nat.pow 2 (-e).toNat * (d' * Nat.pow 2 e.toNat) =
        n' * Nat.pow 2 (-e).toNat * (d * Nat.pow 2 e.toNat) := by
      calc n * Nat.pow 2 (-e).toNat * (d' * Nat.pow 2 e.toNat)
          = n * d' * (Nat.pow 2 (-e).toNat * Nat.pow 2 e.toNat) := by ac_rfl
        _ = n' * Nat.pow 2 (-e).toNat * (d * Nat.pow 2 e.toNat) := by rw [h]; ac_rfl
    rw [nearest_cross (Nat.mul_pos hd (two_pow_pos _)) (Nat.mul_pos hd' (two_pow_pos _)) hscaled]

lemma nearest_whole {f : Nat} (hf : f < d) :
    nearest (n * d + f) d = n ↔ 2 * f < d ∨ 2 * f = d ∧ n % 2 = 0 := by
  have hquotient : (n * d + f) / d = n := by
    rw [Nat.add_comm, Nat.add_mul_div_right _ _ (by omega), Nat.div_eq_of_lt hf, Nat.zero_add]
  have hrest : (n * d + f) % d = f := by
    rw [Nat.add_comm, Nat.add_mul_mod_self_right, Nat.mod_eq_of_lt hf]
  rw [nearest, hquotient, hrest]
  split
  · omega
  · split
    · omega
    · split <;> omega

lemma nearest_lt_even {a k : Nat} (hd : 0 < d) : nearest a d < 2 * k ↔ 2 * a + d < 4 * k * d := by
  have ha := Nat.div_add_mod a d
  have hr := Nat.mod_lt a hd
  rw [nearest]
  generalize a / d = q at *
  generalize a % d = r at *
  rcases Nat.lt_trichotomy (q + 1) (2 * k) with hlow | hnext | hhigh
  · have hk : d * (2 * q + 4) ≤ d * (4 * k) := Nat.mul_le_mul_left d (by omega)
    refine iff_of_true ?_ (by linarith)
    split
    · omega
    · split
      · omega
      · split <;> omega
  · have hk : d * (2 * q + 2) = d * (4 * k) := congrArg (d * ·) (by omega)
    have hhalf : 2 * a + d < 4 * k * d ↔ 2 * r < d := by
      constructor <;> intro h <;> linarith
    rw [hhalf]
    split
    · omega
    · split
      · omega
      · split <;> omega
  · have hk : d * (4 * k) ≤ d * (2 * q) := Nat.mul_le_mul_left d (by omega)
    refine iff_of_false ?_ (by linarith)
    split
    · omega
    · split
      · omega
      · split <;> omega

lemma round_some (hd : d ≠ 0) (h : n < d * Nat.pow 2 53) : ∃ x, round n d = some x := by
  by_cases hn : n = 0
  · exact ⟨zero, if_pos hn⟩
  have hlast := isLastPlace hn hd
  rw [round, if_neg hn]
  generalize lastPlace n d = e at *
  have he : e ≤ 0 := by
    rcases hlast.full with hlowest | hfull
    · omega
    · by_contra hlarge
      have hmany := hfull.mono (show 53 ≤ e + 52 by omega)
      rw [above_iff (i := 53) (j := 0) (by omega), show Nat.pow 2 0 = 1 from rfl, Nat.mul_one] at hmany
      exact Nat.not_le.mpr h hmany
  dsimp only
  split
  · exact ⟨_, if_pos (by dsimp only; omega)⟩
  · exact ⟨_, if_pos (by dsimp only; omega)⟩

def Exact (x : Magnitude) (n : Nat) : Prop :=
  x.mantissa * Nat.pow 2 x.exponent.toNat = n * Nat.pow 2 (-x.exponent).toNat

lemma round_exact {a j : Nat} (ha : a < Nat.pow 2 53) (hj : j ≤ 971) :
    ∃ x, round (a * Nat.pow 2 j) 1 = some x ∧ x.Exact (a * Nat.pow 2 j) := by
  by_cases hzero : a = 0
  · subst hzero
    rw [Nat.zero_mul]
    exact ⟨zero, rfl, by rw [Exact, zero, Nat.zero_mul, Nat.zero_mul]⟩
  generalize hn : a * Nat.pow 2 j = n
  have hne : n ≠ 0 := hn ▸ Nat.mul_ne_zero hzero (Nat.ne_of_gt (two_pow_pos j))
  have hlast := isLastPlace hne Nat.one_ne_zero
  rw [round, if_neg hne]
  generalize lastPlace n 1 = e at *
  have he : e ≤ j := by
    rcases hlast.full with hlowest | hfull
    · omega
    · by_contra hlarge
      have hmany := hfull.mono (show (j : Int) + 53 ≤ e + 52 by omega)
      rw [above_iff (i := j + 53) (j := 0) (by omega), ← hn, Nat.one_mul, Nat.add_comm, two_pow_add,
        show Nat.pow 2 0 = 1 from rfl, Nat.mul_one] at hmany
      exact Nat.not_le.mpr ha (Nat.le_of_mul_le_mul_right hmany (two_pow_pos j))
  -- no place of the number is below the last one
  obtain ⟨i, hi⟩ : ∃ i : Nat, (j : Int) - e = i := ⟨(j - e).toNat, by omega⟩
  have hplaces : n * Nat.pow 2 (-e).toNat = a * Nat.pow 2 i * (1 * Nat.pow 2 e.toNat) := by
    rw [← hn, Nat.one_mul, Nat.mul_assoc, Nat.mul_assoc, ← two_pow_add, ← two_pow_add,
      show j + (-e).toNat = i + e.toNat by omega]
  have hnearest : nearest (n * Nat.pow 2 (-e).toNat) (1 * Nat.pow 2 e.toNat) = a * Nat.pow 2 i := by
    have hpos : 0 < 1 * Nat.pow 2 e.toNat := Nat.mul_pos Nat.one_pos (two_pow_pos _)
    rw [hplaces, ← Nat.add_zero (a * _ * _), nearest_whole hpos]
    exact .inl hpos
  have hcarry : a * Nat.pow 2 i ≠ Nat.pow 2 53 := by
    intro hcarry
    refine hlast.below ((above_iff (i := e.toNat + 53) (j := (-e).toNat) (by omega)).mpr ?_)
    rw [hplaces, hcarry, two_pow_add, Nat.one_mul, Nat.one_mul, Nat.mul_comm]
  dsimp only
  rw [hnearest, if_neg hcarry, if_pos (by dsimp only; omega)]
  exact ⟨_, rfl, by rw [Exact, hplaces, Nat.one_mul]⟩

lemma div_exact {x y : Magnitude} (hx : x.Exact n) (hy : y.Exact d) (hd : 0 < d) : x.div y = round n d := by
  have hpos : 0 < y.mantissa := by
    by_contra hzero
    rw [Exact, Nat.eq_zero_of_not_pos hzero, Nat.zero_mul] at hy
    exact Nat.ne_of_lt (Nat.mul_pos hd (two_pow_pos _)) hy
  have hplaces : (x.exponent - y.exponent).toNat + ((-x.exponent).toNat + y.exponent.toNat) =
      (-(x.exponent - y.exponent)).toNat + (x.exponent.toNat + (-y.exponent).toNat) := by omega
  have hscale := congrArg (Nat.pow 2) hplaces
  simp only [two_pow_add] at hscale
  rw [div, roundScaled]
  apply round_cross (Nat.mul_pos hpos (two_pow_pos _)) hd
  refine Nat.eq_of_mul_eq_mul_right (Nat.mul_pos (two_pow_pos x.exponent.toNat) (two_pow_pos y.exponent.toNat)) ?_
  rw [Exact] at hx hy
  generalize Nat.pow 2 x.exponent.toNat = xu at *
  generalize Nat.pow 2 (-x.exponent).toNat = xd at *
  generalize Nat.pow 2 y.exponent.toNat = yu at *
  generalize Nat.pow 2 (-y.exponent).toNat = yd at *
  generalize Nat.pow 2 (x.exponent - y.exponent).toNat = u at *
  generalize Nat.pow 2 (-(x.exponent - y.exponent)).toNat = v at *
  calc x.mantissa * u * d * (xu * yu)
    _ = x.mantissa * xu * (d * (u * yu)) := by ac_rfl
    _ = n * d * (u * (xd * yu)) := by rw [hx]; ac_rfl
    _ = n * (v * xu) * (d * yd) := by rw [hscale]; ac_rfl
    _ = n * (y.mantissa * v) * (xu * yu) := by rw [← hy]; ac_rfl

end AdocProse.Magnitude
