/-
ProxyPlan.Proofs.Rounding — magnitudes are in order, and those of the format
are rounded to themselves.

The rank of a magnitude says which power of two it lies in and which place it
has there (`units_eq`). From that form everything else follows: magnitudes
increase with their ranks, twice a magnitude is one, a significand of 53 bits
times a power of two is one, and rounding leaves each of them alone. Where
rounding leads is not said for other numbers, only that it does not lead past
the next power of two (`nearestRank_le`).
-/
import Mathlib.Order.Monotone.Basic
import Mathlib.Tactic.Ring
import ProxyPlan.Number.Binary64

namespace ProxyPlan.Number

/-! ## Magnitudes -/

/-- A rank stands for the power of two it lies in and the place it has there. -/
theorem units_eq (r : Nat) : units r =
    if r / 2 ^ 52 = 0 then r % 2 ^ 52 else (2 ^ 52 + r % 2 ^ 52) * 2 ^ (r / 2 ^ 52 - 1) := by
  simp only [units, significand, shift, Nat.pow_eq]
  by_cases hsmall : r < 2 ^ 53
  · simp only [hsmall, if_true, Nat.pow_zero, Nat.mul_one]
    by_cases hzero : r / 2 ^ 52 = 0
    · rw [if_pos hzero]
      omega
    · have hone : r / 2 ^ 52 - 1 = 0 := by omega
      rw [if_neg hzero, hone]
      omega
  · have hpos : ¬ r / 2 ^ 52 = 0 := by omega
    simp only [hsmall, if_false, hpos]

theorem units_of_lt {r : Nat} (h : r < 2 ^ 53) : units r = r := by
  simp only [units, significand, shift, Nat.pow_eq, if_pos h, Nat.pow_zero, Nat.mul_one]

/-- Magnitudes increase with their ranks. -/
theorem units_strictMono : StrictMono units := by
  refine strictMono_nat_of_lt_succ fun r => ?_
  have hm : r % 2 ^ 52 < 2 ^ 52 := Nat.mod_lt _ (by decide)
  rw [units_eq, units_eq]
  by_cases hcarry : r % 2 ^ 52 + 1 = 2 ^ 52
  · -- the next rank is the first one of the next power of two
    have hdiv : (r + 1) / 2 ^ 52 = r / 2 ^ 52 + 1 := by omega
    have hmod : (r + 1) % 2 ^ 52 = 0 := by omega
    rw [hdiv, hmod, if_neg (Nat.succ_ne_zero _), Nat.add_zero, Nat.add_sub_cancel]
    split
    case isTrue hzero =>
      rw [hzero]
      omega
    case isFalse hpos =>
      obtain ⟨q, hq⟩ := Nat.exists_eq_succ_of_ne_zero hpos
      rw [hq, Nat.succ_sub_one]
      calc (2 ^ 52 + r % 2 ^ 52) * 2 ^ q < (2 ^ 52 * 2) * 2 ^ q :=
            Nat.mul_lt_mul_of_pos_right (by omega) (Nat.two_pow_pos q)
        _ = 2 ^ 52 * 2 ^ (q + 1) := by ring
  · have hdiv : (r + 1) / 2 ^ 52 = r / 2 ^ 52 := by omega
    have hmod : (r + 1) % 2 ^ 52 = r % 2 ^ 52 + 1 := by omega
    rw [hdiv, hmod]
    split
    · omega
    · exact Nat.mul_lt_mul_of_pos_right (by omega) (Nat.two_pow_pos _)

theorem units_injective {a b : Nat} (h : units a = units b) : a = b :=
  units_strictMono.injective h

/-- Twice a magnitude is a magnitude. -/
theorem exists_double (r : Nat) : ∃ r', units r' = 2 * units r := by
  by_cases hsmall : r < 2 ^ 52
  · exact ⟨2 * r, by rw [units_of_lt (by omega), units_of_lt (by omega)]⟩
  · refine ⟨r + 2 ^ 52, ?_⟩
    have hdiv : (r + 2 ^ 52) / 2 ^ 52 = r / 2 ^ 52 - 1 + 1 + 1 := by omega
    have hdiv' : r / 2 ^ 52 = r / 2 ^ 52 - 1 + 1 := by omega
    have hmod : (r + 2 ^ 52) % 2 ^ 52 = r % 2 ^ 52 := by omega
    rw [units_eq, units_eq, hdiv, hmod, hdiv', if_neg (Nat.succ_ne_zero _),
      if_neg (Nat.succ_ne_zero _), Nat.add_sub_cancel, Nat.add_sub_cancel, Nat.pow_succ]
    ring

/-- A significand of 53 bits times a power of two is a magnitude. -/
theorem exists_units {m : Nat} (hm : m < 2 ^ 53) (s : Nat) : ∃ r, units r = m * 2 ^ s := by
  induction s with
  | zero => exact ⟨m, by rw [units_of_lt hm, Nat.pow_zero, Nat.mul_one]⟩
  | succ s ih =>
    obtain ⟨r, hr⟩ := ih
    obtain ⟨r', hr'⟩ := exists_double r
    exact ⟨r', by rw [hr', hr, Nat.pow_succ]; ring⟩

/-- The first magnitude of a power of two is that power. -/
theorem units_first (k : Nat) : units ((k + 2) * 2 ^ 52) = 2 ^ (53 + k) := by
  have hdiv : (k + 2) * 2 ^ 52 / 2 ^ 52 = k + 2 := Nat.mul_div_cancel _ (Nat.two_pow_pos 52)
  have hmod : (k + 2) * 2 ^ 52 % 2 ^ 52 = 0 := Nat.mul_mod_left _ _
  rw [units_eq, hdiv, hmod, if_neg (Nat.succ_ne_zero _), Nat.add_zero, ← Nat.pow_add]
  congr 1
  omega

/-! ## Rounding -/

theorem roundHalfEven_le {num den bound : Nat} (hden : 0 < den) (h : num < bound * den) :
    roundHalfEven num den ≤ bound := by
  have hquotient : num / den < bound := (Nat.div_lt_iff_lt_mul hden).mpr h
  unfold roundHalfEven
  dsimp only
  split
  · omega
  · split <;> omega

/-- What is less than a power of two is not rounded past it. -/
theorem nearestRank_le {num den k : Nat} (hden : 0 < den) (h : num < 2 ^ (53 + k) * den) :
    nearestRank num den ≤ (k + 2) * 2 ^ 52 := by
  have hquotient : num / den < 2 ^ (53 + k) := (Nat.div_lt_iff_lt_mul hden).mpr h
  simp only [nearestRank, Nat.pow_eq]
  split
  case isTrue hsmall =>
    have hround := roundHalfEven_le hden ((Nat.div_lt_iff_lt_mul hden).mp hsmall)
    omega
  case isFalse hlarge =>
    have hpos : num / den ≠ 0 := by omega
    have hlow : 53 ≤ (num / den).log2 := (Nat.le_log2 hpos).mpr (Nat.not_lt.mp hlarge)
    have hhigh : (num / den).log2 < 53 + k := (Nat.log2_lt hpos).mpr hquotient
    have hscaled : num < 2 ^ 53 * (den * 2 ^ ((num / den).log2 - 52)) := by
      have hlast : num < 2 ^ ((num / den).log2 + 1) * den :=
        (Nat.div_lt_iff_lt_mul hden).mp Nat.lt_log2_self
      have hpower : (num / den).log2 + 1 = 53 + ((num / den).log2 - 52) := by omega
      rw [hpower, Nat.pow_add] at hlast
      calc num < 2 ^ 53 * 2 ^ ((num / den).log2 - 52) * den := hlast
        _ = 2 ^ 53 * (den * 2 ^ ((num / den).log2 - 52)) := by ring
    have hround := roundHalfEven_le (Nat.mul_pos hden (Nat.two_pow_pos _)) hscaled
    omega

theorem roundHalfEven_exact (n : Nat) {d : Nat} (hd : 0 < d) : roundHalfEven (n * d) d = n := by
  simp [roundHalfEven, Nat.mul_div_cancel n hd, hd]

/-- A magnitude is rounded to itself. -/
theorem nearestRank_exact (r : Nat) {d : Nat} (hd : 0 < d) : nearestRank (units r * d) d = r := by
  simp only [nearestRank, Nat.mul_div_cancel _ hd, Nat.pow_eq]
  by_cases hsmall : r < 2 ^ 53
  · rw [units_of_lt hsmall, if_pos hsmall, roundHalfEven_exact r hd]
  · -- the magnitude has 53 bits and as many zeros as its power of two says
    have hm : r % 2 ^ 52 < 2 ^ 52 := Nat.mod_lt _ (by decide)
    obtain ⟨p, hp⟩ : ∃ p, r / 2 ^ 52 = p + 1 := ⟨r / 2 ^ 52 - 1, by omega⟩
    have hp0 : p ≠ 0 := by omega
    have hunits : units r = (2 ^ 52 + r % 2 ^ 52) * 2 ^ p := by
      rw [units_eq, hp, if_neg (Nat.succ_ne_zero p), Nat.add_sub_cancel]
    have hlow : 2 ^ (52 + p) ≤ units r := by
      rw [hunits, Nat.pow_add]
      exact Nat.mul_le_mul_right _ (Nat.le_add_right _ _)
    have hhigh : units r < 2 ^ (52 + p + 1) := by
      rw [hunits, Nat.add_right_comm, Nat.pow_add]
      exact Nat.mul_lt_mul_of_pos_right (by omega) (Nat.two_pow_pos p)
    have hlarge : ¬ units r < 2 ^ 53 :=
      Nat.not_lt.mpr (Nat.le_trans (Nat.pow_le_pow_right (by decide) (by omega)) hlow)
    have hlog : (units r).log2 = 52 + p :=
      (Nat.log2_eq_iff (by omega)).mpr ⟨hlow, hhigh⟩
    rw [if_neg hlarge, hlog, Nat.add_sub_cancel_left, hunits]
    have hround : (2 ^ 52 + r % 2 ^ 52) * 2 ^ p * d = (2 ^ 52 + r % 2 ^ 52) * (d * 2 ^ p) := by ring
    rw [hround, roundHalfEven_exact _ (Nat.mul_pos hd (Nat.two_pow_pos p))]
    omega

end ProxyPlan.Number
