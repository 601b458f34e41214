import Mathlib.Algebra.Order.Field.Power
import Mathlib.Data.Rat.Cast.Order
import Mathlib.Tactic.FieldSimp
import Mathlib.Tactic.Linarith
import Mathlib.Tactic.NormNum
import Mathlib.Tactic.Positivity
import Mathlib.Tactic.Ring
import SpanStore.Number.Binary64

namespace SpanStore.Binary64

def value (p : Nat × Int) : ℚ := p.1 * 2 ^ p.2

theorem scale_den_pos (num : Nat) {den : Nat} (hden : 0 < den) (exponent : Int) :
    0 < (scale num den exponent).2 := by
  unfold scale
  split
  · exact hden
  · exact Nat.shiftLeft_pos_iff.mpr hden

theorem scale_quotient (num den : Nat) (exponent : Int) :
    ((scale num den exponent).1 : ℚ) / (scale num den exponent).2 =
      num / den * 2 ^ exponent := by
  unfold scale
  split
  · rename_i hexponent
    obtain ⟨k, rfl⟩ := Int.eq_ofNat_of_zero_le hexponent
    simp only [Int.toNat_natCast, Nat.shiftLeft_eq, zpow_natCast]
    push_cast
    ring
  · rename_i hexponent
    obtain ⟨k, hk⟩ := Int.eq_ofNat_of_zero_le (show 0 ≤ -exponent by omega)
    obtain rfl : exponent = -k := by omega
    simp only [neg_neg, Int.toNat_natCast, Nat.shiftLeft_eq, zpow_neg, zpow_natCast]
    push_cast
    rw [div_mul_eq_div_div, div_eq_mul_inv ((num : ℚ) / den)]

theorem roundDiv_bounds (num : Nat) {den : Nat} (hden : 0 < den) :
    2 * (roundDiv num den * den) ≤ 2 * num + den ∧
      2 * num ≤ 2 * (roundDiv num den * den) + den := by
  have hdivide := Nat.div_add_mod num den
  have hrest := Nat.mod_lt num hden
  rw [Nat.mul_comm] at hdivide
  simp only [roundDiv]
  split
  · rw [Nat.add_mul, Nat.one_mul]
    omega
  · omega

theorem roundDiv_error (num : Nat) {den : Nat} (hden : 0 < den) :
    |(roundDiv num den : ℚ) - num / den| ≤ 1 / 2 := by
  obtain ⟨hupper, hlower⟩ := roundDiv_bounds num hden
  have hdenq : (0 : ℚ) < den := by exact_mod_cast hden
  have hupperq : 2 * ((roundDiv num den : ℚ) * den) ≤ 2 * num + den := by exact_mod_cast hupper
  have hlowerq : 2 * (num : ℚ) ≤ 2 * (roundDiv num den * den) + den := by exact_mod_cast hlower
  have hnum : (num : ℚ) = num / den * den := (div_mul_cancel₀ _ hdenq.ne').symm
  rw [hnum] at hupperq hlowerq
  rw [abs_le]
  constructor <;> nlinarith

theorem roundDiv_exact (m : Nat) {den : Nat} (hden : 0 < den) : roundDiv (m * den) den = m := by
  have hdown : ¬ (2 * 0 > den ∨ 2 * 0 = den ∧ m % 2 = 1) := by omega
  simp only [roundDiv, Nat.mul_div_cancel m hden, Nat.mul_mod_left, if_neg hdown]

theorem roundDiv_zero {den : Nat} (hden : 0 < den) : roundDiv 0 den = 0 := by
  simpa using roundDiv_exact 0 hden

section Nearest

variable {num den : Nat}

def stepExponent (num den : Nat) : Int :=
  let estimate : Int := (num.log2 : Int) - den.log2 - 53
  let (n, d) := scale num den (-estimate)
  max (if n / d < 1 <<< 53 then estimate else estimate + 1) (-1074)

theorem nearest_of_ne_zero (hnum : num ≠ 0) :
    nearest num den =
      (roundDiv (scale num den (-stepExponent num den)).1
        (scale num den (-stepExponent num den)).2, stepExponent num den) := by
  rw [nearest, if_neg hnum]
  rfl

@[simp] theorem nearest_zero (den : Nat) : nearest 0 den = (0, -1074) := rfl

theorem log2_bounds (hnum : num ≠ 0) :
    (2 : ℚ) ^ (num.log2 : Int) ≤ num ∧ (num : ℚ) < 2 ^ ((num.log2 : Int) + 1) := by
  constructor
  · rw [zpow_natCast]
    exact_mod_cast Nat.log2_self_le hnum
  · rw [← Nat.cast_succ, zpow_natCast]
    exact_mod_cast Nat.lt_log2_self

theorem estimate_bounds (hnum : num ≠ 0) (hden : den ≠ 0) :
    let estimate : Int := (num.log2 : Int) - den.log2 - 53
    (2 : ℚ) ^ (estimate + 52) ≤ num / den ∧ (num : ℚ) / den < 2 ^ (estimate + 54) := by
  intro estimate
  obtain ⟨hnum_lower, hnum_upper⟩ := log2_bounds hnum
  obtain ⟨hden_lower, hden_upper⟩ := log2_bounds hden
  have hdenq : (0 : ℚ) < den := by exact_mod_cast Nat.pos_of_ne_zero hden
  have htwo : (2 : ℚ) ≠ 0 := two_ne_zero
  constructor
  · rw [le_div_iff₀ hdenq]
    calc (2 : ℚ) ^ (estimate + 52) * den
        ≤ 2 ^ (estimate + 52) * 2 ^ ((den.log2 : Int) + 1) := by gcongr
      _ = 2 ^ (num.log2 : Int) := by rw [← zpow_add₀ htwo]; congr 1; omega
      _ ≤ num := hnum_lower
  · rw [div_lt_iff₀ hdenq]
    calc (num : ℚ) < 2 ^ ((num.log2 : Int) + 1) := hnum_upper
      _ = 2 ^ (estimate + 54) * 2 ^ (den.log2 : Int) := by
        rw [← zpow_add₀ htwo]; congr 1; omega
      _ ≤ 2 ^ (estimate + 54) * den := by gcongr

theorem scale_div_lt_iff (num : Nat) (hden : den ≠ 0) (estimate : Int) :
    (scale num den (-estimate)).1 / (scale num den (-estimate)).2 < 1 <<< 53 ↔
      (num : ℚ) / den < 2 ^ (estimate + 53) := by
  have hscaled := scale_den_pos num (Nat.pos_of_ne_zero hden) (-estimate)
  have hquotient := scale_quotient num den (-estimate)
  have hstep : (0 : ℚ) < 2 ^ estimate := by positivity
  have hscaledq : (0 : ℚ) < ((scale num den (-estimate)).2 : ℚ) := by exact_mod_cast hscaled
  rw [Nat.div_lt_iff_lt_mul hscaled, Nat.shiftLeft_eq, Nat.one_mul]
  rw [zpow_neg, ← div_eq_mul_inv] at hquotient
  rw [zpow_add₀ two_ne_zero, ← div_lt_iff₀' hstep, ← hquotient, div_lt_iff₀ hscaledq]
  constructor
  · intro h
    exact_mod_cast h
  · intro h
    exact_mod_cast h

theorem stepExponent_bounds (hnum : num ≠ 0) (hden : den ≠ 0) :
    (num : ℚ) / den < 2 ^ (stepExponent num den + 53) ∧
      (stepExponent num den = -1074 ∨ (2 : ℚ) ^ (stepExponent num den + 52) ≤ num / den) := by
  obtain ⟨hlower, hupper⟩ := estimate_bounds hnum hden
  have hiff := scale_div_lt_iff num hden ((num.log2 : Int) - den.log2 - 53)
  unfold stepExponent
  simp only
  generalize (num.log2 : Int) - den.log2 - 53 = estimate at *
  have hmono {a b : Int} (h : a ≤ b) : (2 : ℚ) ^ a ≤ 2 ^ b :=
    zpow_le_zpow_right₀ one_le_two h
  split
  · rename_i hfits
    have hfitsq := hiff.mp hfits
    refine ⟨hfitsq.trans_le (hmono (by omega)), ?_⟩
    rcases le_total estimate (-1074) with h | h
    · exact .inl (max_eq_right h)
    · rw [max_eq_left h]
      exact .inr hlower
  · rename_i hfits
    have hfitsq := not_lt.mp (hiff.not.mp hfits)
    refine ⟨hupper.trans_le (hmono (by omega)), ?_⟩
    rcases le_total (estimate + 1) (-1074) with h | h
    · exact .inl (max_eq_right h)
    · rw [max_eq_left h, show estimate + 1 + 52 = estimate + 53 by omega]
      exact .inr hfitsq

theorem nearest_exponent_lt {k : Int} (hden : den ≠ 0) (h : (num : ℚ) / den < 2 ^ k) :
    (nearest num den).2 = -1074 ∨ (nearest num den).2 + 52 < k := by
  by_cases hnum : num = 0
  · subst hnum
    exact .inl rfl
  · rw [nearest_of_ne_zero hnum]
    refine (stepExponent_bounds hnum hden).2.imp id ?_
    intro hlower
    exact (zpow_lt_zpow_iff_right₀ one_lt_two).mp (hlower.trans_lt h)

theorem scaled_quotient (num den : Nat) (exponent : Int) :
    ((scale num den (-exponent)).1 : ℚ) / (scale num den (-exponent)).2 * 2 ^ exponent =
      num / den := by
  rw [scale_quotient, mul_assoc, ← zpow_add₀ two_ne_zero, neg_add_cancel, zpow_zero, mul_one]

theorem significand_le (num : Nat) (hden : den ≠ 0) : (nearest num den).1 ≤ 2 ^ 53 := by
  by_cases hnum : num = 0
  · subst hnum
    exact Nat.zero_le _
  · obtain ⟨hupper, -⟩ := stepExponent_bounds hnum hden
    rw [nearest_of_ne_zero hnum]
    generalize stepExponent num den = exponent at *
    have hround := roundDiv_error (scale num den (-exponent)).1
      (scale_den_pos num (Nat.pos_of_ne_zero hden) (-exponent))
    rw [← scaled_quotient num den exponent, add_comm, zpow_add₀ two_ne_zero] at hupper
    have hbelow := lt_of_mul_lt_mul_right hupper (by positivity)
    have hsignificand := (abs_le.mp hround).2
    generalize
      roundDiv (scale num den (-exponent)).1 (scale num den (-exponent)).2 = significand at *
    have hlt : (significand : ℚ) < (2 ^ 53 + 1 : Nat) := by
      push_cast
      linarith
    exact Nat.lt_succ_iff.mp (by exact_mod_cast hlt)

theorem nearest_error (num : Nat) (hden : den ≠ 0) :
    |value (nearest num den) - num / den| ≤ max ((num : ℚ) / den / 2 ^ 53) (2 ^ (-1075 : Int)) := by
  by_cases hnum : num = 0
  · subst hnum
    simp [value]
  · obtain ⟨-, hlower⟩ := stepExponent_bounds hnum hden
    rw [nearest_of_ne_zero hnum, value]
    simp only
    generalize stepExponent num den = exponent at *
    have hstep : (0 : ℚ) < 2 ^ exponent := by positivity
    have hround := roundDiv_error (scale num den (-exponent)).1
      (scale_den_pos num (Nat.pos_of_ne_zero hden) (-exponent))
    have herror : |(roundDiv (scale num den (-exponent)).1 (scale num den (-exponent)).2 : ℚ) *
        2 ^ exponent - num / den| ≤ 1 / 2 * 2 ^ exponent := by
      rw [← scaled_quotient num den exponent, ← sub_mul, abs_mul, abs_of_pos hstep]
      gcongr
    refine herror.trans ?_
    rcases hlower with rfl | hlower
    · refine le_max_of_le_right ?_
      rw [show (-1075 : Int) = -1 + -1074 from rfl, zpow_add₀ two_ne_zero, zpow_neg_one, one_div]
    · refine le_max_of_le_left ?_
      rw [zpow_add₀ two_ne_zero] at hlower
      rw [le_div_iff₀ (by positivity)]
      norm_num at hlower ⊢
      linarith

theorem value_nearest_whole {m : Nat} (hm : m < 2 ^ 53) (hden : den ≠ 0) :
    value (nearest (m * den) den) = m := by
  by_cases hzero : m = 0
  · subst hzero
    simp [value]
  · have hnum : m * den ≠ 0 := Nat.mul_ne_zero hzero hden
    have hquotient : ((m * den : Nat) : ℚ) / den = m := by
      push_cast
      exact mul_div_cancel_right₀ _ (by exact_mod_cast hden)
    obtain ⟨-, hlower⟩ := stepExponent_bounds hnum hden
    rw [hquotient] at hlower
    -- A step above one would make the number too large.
    have hexponent : stepExponent (m * den) den ≤ 0 := by
      rcases hlower with h | h
      · omega
      · by_contra hpos
        have hlarge : (2 : ℚ) ^ (53 : Int) ≤ 2 ^ (stepExponent (m * den) den + 52) :=
          zpow_le_zpow_right₀ one_le_two (by omega)
        have hmq : (m : ℚ) < 2 ^ (53 : Int) := by exact_mod_cast hm
        linarith
    rw [nearest_of_ne_zero hnum, value]
    simp only
    generalize stepExponent (m * den) den = exponent at *
    obtain ⟨k, rfl⟩ : ∃ k : Nat, exponent = -k := ⟨exponent.natAbs, by omega⟩
    have hscaled : scale (m * den) den (- -(k : Int)) = (m * 2 ^ k * den, den) := by
      simp only [scale, neg_neg, Int.natCast_nonneg, if_true, Int.toNat_natCast, Nat.shiftLeft_eq]
      rw [Nat.mul_right_comm]
    rw [hscaled, roundDiv_exact _ (Nat.pos_of_ne_zero hden), zpow_neg, zpow_natCast]
    push_cast
    exact mul_inv_cancel_right₀ (by positivity) _

end Nearest

end SpanStore.Binary64
