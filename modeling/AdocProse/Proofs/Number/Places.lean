import AdocProse.Number.Binary64
import Mathlib.Tactic.Lemma
import Mathlib.Tactic.ByContra

/-! The place that a fraction is rounded to is the one that leaves it 53 binary places, unless that is below
the lowest place. -/

namespace AdocProse.Magnitude

lemma two_pow_add (i j : Nat) : Nat.pow 2 (i + j) = Nat.pow 2 i * Nat.pow 2 j :=
  Nat.pow_add 2 i j

lemma two_pow_pos (i : Nat) : 0 < Nat.pow 2 i :=
  Nat.two_pow_pos i

lemma two_pow_le {i j : Nat} (h : i ≤ j) : Nat.pow 2 i ≤ Nat.pow 2 j :=
  Nat.pow_le_pow_right (by decide) h

variable {n d : Nat}

/-- The fraction `n / d` is at least `2 ^ q`. -/
def Above (n d : Nat) (q : Int) : Prop :=
  d * Nat.pow 2 q.toNat ≤ n * Nat.pow 2 (-q).toNat

lemma above_iff {i j : Nat} {q : Int} (h : (i : Int) - j = q) :
    Above n d q ↔ d * Nat.pow 2 i ≤ n * Nat.pow 2 j := by
  obtain ⟨k, rfl, rfl⟩ : ∃ k, i = q.toNat + k ∧ j = (-q).toNat + k :=
    ⟨min i j, by omega, by omega⟩
  rw [Above, two_pow_add, two_pow_add, ← Nat.mul_assoc, ← Nat.mul_assoc,
    Nat.mul_le_mul_right_iff (two_pow_pos k)]

lemma Above.mono {q r : Int} (h : Above n d q) (hr : r ≤ q) : Above n d r := by
  rw [above_iff (show ((q - r).toNat + r.toNat : Nat) - ((-r).toNat : Int) = q by omega)] at h
  exact Nat.le_trans (Nat.mul_le_mul_left _ (two_pow_le (Nat.le_add_left _ _))) h

lemma above_cross {n' d' : Nat} (hd : 0 < d) (hd' : 0 < d') (h : n * d' = n' * d) {q : Int} :
    Above n d q ↔ Above n' d' q := by
  have hleft : d * Nat.pow 2 q.toNat * d' = d' * Nat.pow 2 q.toNat * d := by ac_rfl
  have hright : n * Nat.pow 2 (-q).toNat * d' = n' * Nat.pow 2 (-q).toNat * d := by
    rw [Nat.mul_right_comm, h, Nat.mul_right_comm]
  rw [Above, Above, ← Nat.mul_le_mul_right_iff hd', hleft, hright, Nat.mul_le_mul_right_iff hd]

lemma above_log2 (hn : n ≠ 0) : Above n d (n.log2 - d.log2 - 1) := by
  rw [above_iff (i := n.log2) (j := d.log2 + 1) (by omega)]
  have hd : d ≤ Nat.pow 2 (d.log2 + 1) := Nat.le_of_lt Nat.lt_log2_self
  have hlog : Nat.pow 2 n.log2 ≤ n := Nat.log2_self_le hn
  rw [Nat.mul_comm n]
  exact Nat.mul_le_mul hd hlog

lemma not_above_log2 (hd : d ≠ 0) : ¬Above n d (n.log2 - d.log2 + 1) := by
  rw [above_iff (i := n.log2 + 1) (j := d.log2) (by omega), Nat.not_le, Nat.mul_comm d]
  have hn : n < Nat.pow 2 (n.log2 + 1) := Nat.lt_log2_self
  have hlog : Nat.pow 2 d.log2 ≤ d := Nat.log2_self_le hd
  exact Nat.mul_lt_mul_of_lt_of_le hn hlog (Nat.pos_of_ne_zero hd)

/-- The place keeps 53 binary places of the fraction, or it is the lowest one. -/
structure IsLastPlace (n d : Nat) (e : Int) : Prop where
  lowest : -1074 ≤ e
  below : ¬Above n d (e + 53)
  full : e = -1074 ∨ Above n d (e + 52)

lemma isLastPlace (hn : n ≠ 0) (hd : d ≠ 0) : IsLastPlace n d (lastPlace n d) := by
  have hover := not_above_log2 (n := n) hd
  have hunder := above_log2 (d := d) hn
  rw [lastPlace]
  generalize hlow : max ((n.log2 : Int) - d.log2 - 53) (-1074) = low
  have hfull : d * Nat.pow 2 low.toNat * Nat.pow 2 53 ≤ n * Nat.pow 2 (-low).toNat ↔ Above n d (low + 53) := by
    rw [above_iff (i := low.toNat + 53) (j := (-low).toNat) (by omega), two_pow_add, Nat.mul_assoc]
  split
  · next hbig =>
    rw [hfull] at hbig
    exact ⟨by omega, fun h => hover (h.mono (by omega)), .inr (hbig.mono (by omega))⟩
  · next hsmall =>
    rw [hfull] at hsmall
    refine ⟨by omega, hsmall, ?_⟩
    by_cases hlowest : low = -1074
    · exact .inl hlowest
    · exact .inr (hunder.mono (by omega))

lemma IsLastPlace.unique {e e' : Int} (h : IsLastPlace n d e) (h' : IsLastPlace n d e') : e = e' := by
  have hle : ∀ {e e' : Int}, IsLastPlace n d e → IsLastPlace n d e' → e ≤ e' := by
    intro e e' h h'
    rcases h.full with hlowest | hfull
    · exact hlowest ▸ h'.lowest
    · by_contra hlt
      exact h'.below (hfull.mono (by omega))
  exact Int.le_antisymm (hle h h') (hle h' h)

lemma IsLastPlace.lastPlace_eq {e : Int} (h : IsLastPlace n d e) (hn : n ≠ 0) (hd : d ≠ 0) :
    lastPlace n d = e :=
  (isLastPlace hn hd).unique h

end AdocProse.Magnitude
