import AdocProse.Proofs.Number.Nearest
import Mathlib.Data.Nat.Size

/-! The conditions under which rounding a number to binary64 keeps its whole part. -/

namespace AdocProse.Magnitude

variable {n d : Nat}

lemma floor_carry (e : Int) : (⟨Nat.pow 2 52, e + 1⟩ : Magnitude).floor =
    (⟨Nat.pow 2 53, e⟩ : Magnitude).floor := by
  rw [floor, floor]
  dsimp only
  by_cases he : 0 ≤ e
  · rw [show (-(e + 1)).toNat = 0 by omega, show (-e).toNat = 0 by omega,
      show (e + 1).toNat = 1 + e.toNat by omega, two_pow_add, ← Nat.mul_assoc]
  · rw [show (e + 1).toNat = 0 by omega, show e.toNat = 0 by omega,
      show (-e).toNat = (-(e + 1)).toNat + 1 by omega, two_pow_add]
    have h53 : Nat.pow 2 53 = Nat.pow 2 52 * Nat.pow 2 1 := rfl
    rw [h53, Nat.mul_right_comm (Nat.pow 2 52), Nat.mul_div_mul_right _ _ (two_pow_pos 1)]

/-- What is rounded to one place, before a carry. -/
def atPlace (n d : Nat) (e : Int) : Magnitude :=
  ⟨nearest (n * Nat.pow 2 (-e).toNat) (d * Nat.pow 2 e.toNat), e⟩

lemma floor_round {e : Int} (hn : n ≠ 0) (hd : d ≠ 0) (he : IsLastPlace n d e) {x : Magnitude}
    (hx : round n d = some x) : x.floor = (atPlace n d e).floor := by
  rw [round, if_neg hn, he.lastPlace_eq hn hd] at hx
  dsimp only at hx
  split at hx
  · next hcarry =>
    obtain ⟨-, hx⟩ := Option.ite_none_right_eq_some.mp hx
    rw [← Option.some.inj hx, floor_carry, atPlace, hcarry]
  · obtain ⟨-, hx⟩ := Option.ite_none_right_eq_some.mp hx
    rw [← Option.some.inj hx, atPlace]

/-- Up to 52 binary places the number `n + f / d` must be nearer to the place below `n + 1` than to that, with
53 places the fraction is rounded to zero or one, and with more `n` itself must end on the last place. -/
def Keeps (n f d : Nat) : Prop :=
  if n.size < 53 then f * 2 ^ (54 - n.size) + d < d * 2 ^ (54 - n.size)
  else if n.size = 53 then 2 * f < d ∨ 2 * f = d ∧ n % 2 = 0
  else 2 ^ (n.size - 53) ∣ n

section Whole

variable {f : Nat}

lemma isLastPlace_whole (hf : f < d) (h : n ≠ 0 ∨ d ≤ 2 * f) :
    IsLastPlace (n * d + f) d (n.size - 53) := by
  have hsize : n < Nat.pow 2 n.size := Nat.lt_size_self n
  refine ⟨by omega, ?_, .inr ?_⟩
  · rw [above_iff (i := n.size) (j := 0) (by omega), Nat.not_le]
    calc (n * d + f) * 1 < (n + 1) * d := by rw [Nat.mul_one, Nat.succ_mul]; omega
      _ ≤ d * Nat.pow 2 n.size := by rw [Nat.mul_comm d]; exact Nat.mul_le_mul_right d hsize
  · by_cases hn : n = 0
    · subst hn
      rw [above_iff (i := 0) (j := 1) (by simp)]
      change d * 1 ≤ (0 * d + f) * 2
      omega
    · have hpos : 0 < n.size := Nat.size_pos.mpr (Nat.pos_of_ne_zero hn)
      have hlow : Nat.pow 2 (n.size - 1) ≤ n := Nat.lt_size.mp (by omega)
      rw [above_iff (i := n.size - 1) (j := 0) (by omega)]
      calc d * Nat.pow 2 (n.size - 1) ≤ n * d := by rw [Nat.mul_comm]; exact Nat.mul_le_mul_right d hlow
        _ ≤ (n * d + f) * 1 := by omega

lemma floor_above {k : Nat} (hk : 0 < k) (hf : f < d) :
    (atPlace (n * d + f) d k).floor = n ↔ Nat.pow 2 k ∣ n := by
  have hneg : (-(k : Int)).toNat = 0 := by omega
  rw [floor, atPlace, hneg, Int.toNat_natCast, show Nat.pow 2 0 = 1 from rfl, Nat.mul_one, Nat.div_one]
  constructor
  · exact fun h => ⟨_, h.symm.trans (Nat.mul_comm _ _)⟩
  · rintro ⟨q, rfl⟩
    have htwice : d * 2 ≤ d * Nat.pow 2 k := Nat.mul_le_mul_left d (two_pow_le hk)
    have hwhole : nearest (q * (d * Nat.pow 2 k) + f) (d * Nat.pow 2 k) = q :=
      (nearest_whole (by omega)).mpr (.inl (by omega))
    rw [show Nat.pow 2 k * q * d = q * (d * Nat.pow 2 k) by ac_rfl, hwhole]
    exact Nat.mul_comm _ _

lemma floor_units (hf : f < d) :
    (atPlace (n * d + f) d 0).floor = n ↔ 2 * f < d ∨ 2 * f = d ∧ n % 2 = 0 := by
  rw [← nearest_whole hf]
  simp [floor, atPlace]

lemma floor_below {k : Nat} (hd : 0 < d) :
    (atPlace (n * d + f) d (-(k + 1 : Nat))).floor = n ↔
      f * Nat.pow 2 (k + 2) + d < d * Nat.pow 2 (k + 2) := by
  have hpow : Nat.pow 2 (k + 1) = 2 * Nat.pow 2 k := Nat.pow_succ'
  have hpow2 : Nat.pow 2 (k + 2) = 2 * Nat.pow 2 (k + 1) := Nat.pow_succ'
  have hlow : n * Nat.pow 2 (k + 1) ≤ nearest ((n * d + f) * Nat.pow 2 (k + 1)) d := by
    refine Nat.le_trans ?_ (div_le_nearest _ _)
    rw [Nat.le_div_iff_mul_le hd, Nat.mul_right_comm]
    exact Nat.mul_le_mul_right _ (Nat.le_add_right _ _)
  have hhigh : nearest ((n * d + f) * Nat.pow 2 (k + 1)) d < (n + 1) * Nat.pow 2 (k + 1) ↔
      f * Nat.pow 2 (k + 2) + d < d * Nat.pow 2 (k + 2) := by
    have heven : (n + 1) * Nat.pow 2 (k + 1) = 2 * ((n + 1) * Nat.pow 2 k) := by
      rw [hpow, Nat.mul_left_comm]
    rw [heven, nearest_lt_even hd, hpow2, hpow]
    constructor <;> intro h <;> linarith
  rw [floor, atPlace, Int.neg_neg, Int.toNat_natCast, show (-((k + 1 : Nat) : Int)).toNat = 0 by omega,
    show Nat.pow 2 0 = 1 from rfl, Nat.mul_one, Nat.mul_one, Nat.div_eq_iff (two_pow_pos _), ← hhigh]
  have hpos := two_pow_pos (k + 1)
  rw [Nat.succ_mul]
  dsimp only
  omega

lemma floor_small (hhalf : 2 * f < d) {x : Magnitude} (hx : round f d = some x) : x.floor = 0 := by
  by_cases hf : f = 0
  · rw [round, if_pos hf] at hx
    rw [← Option.some.inj hx, floor, zero, Nat.zero_mul, Nat.zero_div]
  have hd : d ≠ 0 := by omega
  have hlast := isLastPlace hf hd
  generalize lastPlace f d = e at hlast
  have he : e ≤ -54 := by
    rcases hlast.full with hlowest | hfull
    · omega
    · by_contra hlarge
      have hone := hfull.mono (show -1 ≤ e + 52 by omega)
      rw [above_iff (i := 0) (j := 1) (by simp)] at hone
      change d * 1 ≤ f * 2 at hone
      omega
  obtain ⟨k, rfl⟩ : ∃ k : Nat, e = -k := ⟨(-e).toNat, by omega⟩
  have hbelow := hlast.below
  rw [above_iff (i := 53) (j := k) (by omega), Nat.not_le] at hbelow
  rw [floor_round hf hd hlast hx, floor, atPlace, Int.neg_neg, Int.toNat_natCast,
    show (-(k : Int)).toNat = 0 by omega, show Nat.pow 2 0 = 1 from rfl, Nat.mul_one, Nat.mul_one]
  apply Nat.div_eq_of_lt
  have hnearest : nearest (f * Nat.pow 2 k) d < 2 * Nat.pow 2 53 := by
    rw [nearest_lt_even (Nat.pos_of_ne_zero hd), show Nat.pow 2 53 = 9007199254740992 from rfl]
    rw [show Nat.pow 2 53 = 9007199254740992 from rfl] at hbelow
    omega
  exact Nat.lt_of_lt_of_le hnearest (two_pow_le (show 54 ≤ k by omega))

lemma floor_round_iff (hf : f < d) {x : Magnitude} (hx : round (n * d + f) d = some x) :
    x.floor = n ↔ Keeps n f d := by
  by_cases hsmall : n = 0 ∧ 2 * f < d
  · obtain ⟨rfl, hhalf⟩ := hsmall
    rw [Nat.zero_mul, Nat.zero_add] at hx
    refine iff_of_true (floor_small hhalf hx) ?_
    rw [Keeps, if_pos (by simp), Nat.size_zero]
    omega
  have hplace : IsLastPlace (n * d + f) d (n.size - 53) := isLastPlace_whole hf (by omega)
  have hne : n * d + f ≠ 0 := by
    intro hzero
    have hn : n * d = 0 := by omega
    have := (Nat.mul_eq_zero.mp hn).resolve_right (by omega)
    omega
  rw [floor_round hne (by omega) hplace hx, Keeps]
  rcases Nat.lt_trichotomy n.size 53 with hfew | hall | hmany
  · obtain ⟨k, hk⟩ : ∃ k, 53 = n.size + (k + 1) := ⟨52 - n.size, by omega⟩
    rw [if_pos hfew, show (n.size : Int) - 53 = -(k + 1 : Nat) by omega, floor_below (by omega),
      show 54 - n.size = k + 2 by omega]
    rfl
  · rw [if_neg (by omega), if_pos hall, hall]
    exact floor_units hf
  · obtain ⟨k, hk⟩ : ∃ k, n.size = 53 + k := ⟨n.size - 53, by omega⟩
    rw [if_neg (by omega), if_neg (by omega), show (n.size : Int) - 53 = k by omega,
      floor_above (by omega) hf, show n.size - 53 = k by omega]
    rfl

lemma keeps_of_few (hf : f < d) (hd : 2 ≤ d) (hfew : n * d + f < 2 ^ 53) : Keeps n f d := by
  obtain ⟨hsize, hfraction⟩ : n.size < 53 ∧ f + 1 < 2 ^ (54 - n.size) := by
    by_cases hn : n = 0
    · rw [hn, Nat.size_zero]
      omega
    · have hpos : 0 < n.size := Nat.size_pos.mpr (Nat.pos_of_ne_zero hn)
      have hlow : 2 ^ (n.size - 1) ≤ n := Nat.lt_size.mp (by omega)
      have hproduct : 2 ^ (n.size - 1) * d < 2 ^ 53 :=
        Nat.lt_of_le_of_lt (Nat.mul_le_mul_right d hlow) (by omega)
      have hsize : n.size < 53 := by
        by_contra hlarge
        have hhalf : 2 ^ 52 * 2 ≤ 2 ^ (n.size - 1) * d :=
          Nat.mul_le_mul (Nat.pow_le_pow_right (by decide) (by omega)) hd
        omega
      refine ⟨hsize, Nat.lt_of_le_of_lt hf (Nat.lt_of_mul_lt_mul_left (a := 2 ^ (n.size - 1)) ?_)⟩
      rwa [← Nat.pow_add, show n.size - 1 + (54 - n.size) = 53 by omega]
  rw [Keeps, if_pos hsize]
  generalize 2 ^ (54 - n.size) = p at *
  obtain ⟨t, rfl⟩ : ∃ t, d = f + (t + 1) := ⟨d - f - 1, by omega⟩
  nlinarith

end Whole

end AdocProse.Magnitude
