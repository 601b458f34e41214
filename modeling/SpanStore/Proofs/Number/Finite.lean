import SpanStore.Proofs.Number.Rounding

namespace SpanStore.Binary64

def overflow : ℚ := (2 ^ 54 - 1) * 2 ^ (970 : Int)

theorem roundDiv_lt_iff {num den m : Nat} (hden : 0 < den) (hm : m % 2 = 0) (hpos : 0 < m) :
    roundDiv num den < m ↔ 2 * num < (2 * m - 1) * den := by
  have hdivide := Nat.div_add_mod num den
  have hrest := Nat.mod_lt num hden
  rw [Nat.mul_comm] at hdivide
  have hbound : (2 * m - 1) * den = 2 * (m * den) - den := by
    rw [Nat.sub_mul, Nat.one_mul, Nat.mul_assoc]
  have hall : den ≤ m * den := Nat.le_mul_of_pos_left den hpos
  simp only [roundDiv]
  rcases Nat.lt_trichotomy (num / den + 1) m with hless | hequal | hmore
  · have hstep : (num / den + 1 + 1) * den ≤ m * den := Nat.mul_le_mul_right den hless
    rw [Nat.add_mul, Nat.add_mul, Nat.one_mul] at hstep
    split <;> omega
  · have hstep : (num / den + 1) * den = m * den := by rw [hequal]
    rw [Nat.add_mul, Nat.one_mul] at hstep
    have hodd : num / den % 2 = 1 := by omega
    split <;> omega
  · have hstep : m * den ≤ num / den * den := Nat.mul_le_mul_right den (by omega)
    split <;> omega

theorem magnitudeBits_lt_iff {significand : Nat} {exponent : Int} (hmost : significand ≤ 2 ^ 53)
    (hnormal : exponent = -1074 ∨ 2 ^ 52 ≤ significand) :
    magnitudeBits significand exponent < 2047 <<< 52 ↔
      exponent ≤ 970 ∨ exponent = 971 ∧ significand < 2 ^ 53 := by
  unfold magnitudeBits
  rw [Nat.shiftLeft_eq, Nat.shiftLeft_eq]
  omega

theorem two_zpow_mono {a b : Int} (h : a ≤ b) : (2 : ℚ) ^ a ≤ 2 ^ b :=
  zpow_le_zpow_right₀ one_le_two h

theorem overflow_eq : overflow = (2 ^ 53 - 1 / 2) * 2 ^ (971 : Int) := by
  rw [overflow, show (971 : Int) = 1 + 970 from rfl, zpow_add₀ two_ne_zero, zpow_one]
  ring

theorem two_zpow_lt_overflow : (2 : ℚ) ^ (1023 : Int) < overflow := by
  have hstep : (0 : ℚ) < 2 ^ (970 : Int) := by positivity
  rw [overflow, show (1023 : Int) = 53 + 970 from rfl, zpow_add₀ two_ne_zero]
  refine mul_lt_mul_of_pos_right ?_ hstep
  norm_num

theorem overflow_lt_two_zpow : overflow < (2 : ℚ) ^ (1024 : Int) := by
  have hstep : (0 : ℚ) < 2 ^ (970 : Int) := by positivity
  rw [overflow, show (1024 : Int) = 54 + 970 from rfl, zpow_add₀ two_ne_zero]
  refine mul_lt_mul_of_pos_right ?_ hstep
  norm_num

section Quotient

variable {num den : Nat} (hnum : num ≠ 0) (hden : den ≠ 0)

include hnum hden

theorem nearest_normal :
    stepExponent num den = -1074 ∨ 2 ^ 52 ≤ (nearest num den).1 := by
  refine (stepExponent_bounds hnum hden).2.imp id fun hlower => ?_
  rw [nearest_of_ne_zero hnum]
  generalize stepExponent num den = exponent at *
  have hscaled := scale_den_pos num (Nat.pos_of_ne_zero hden) (-exponent)
  rw [← scaled_quotient num den exponent, add_comm, zpow_add₀ two_ne_zero] at hlower
  have hstep : (0 : ℚ) < 2 ^ exponent := by positivity
  have hquotient := le_of_mul_le_mul_right hlower hstep
  rw [le_div_iff₀ (by exact_mod_cast hscaled)] at hquotient
  have hwhole : 2 ^ 52 * (scale num den (-exponent)).2 ≤ (scale num den (-exponent)).1 := by
    exact_mod_cast hquotient
  have hfloor := (Nat.le_div_iff_mul_le hscaled).mpr hwhole
  simp only [roundDiv]
  split <;> omega

theorem nearest_significand_lt_iff : (nearest num den).1 < 2 ^ 53 ↔
    (num : ℚ) / den < (2 ^ 53 - 1 / 2) * 2 ^ stepExponent num den := by
  rw [nearest_of_ne_zero hnum]
  generalize stepExponent num den = exponent
  have hscaled := scale_den_pos num (Nat.pos_of_ne_zero hden) (-exponent)
  have hscaledq : (0 : ℚ) < ((scale num den (-exponent)).2 : ℚ) := by exact_mod_cast hscaled
  have hstep : (0 : ℚ) < 2 ^ exponent := by positivity
  rw [roundDiv_lt_iff hscaled (by decide) (by decide), ← scaled_quotient num den exponent,
    mul_lt_mul_iff_left₀ hstep, div_lt_iff₀ hscaledq]
  generalize (scale num den (-exponent)).1 = n, (scale num den (-exponent)).2 = d
  have hcast : 2 * n < (2 * 2 ^ 53 - 1) * d ↔ 2 * (n : ℚ) < (2 * 2 ^ 53 - 1) * d := by
    rw [show 2 * 2 ^ 53 - 1 = 18014398509481983 from rfl]
    norm_num
    exact_mod_cast Iff.rfl
  rw [hcast]
  constructor <;> intro h <;> linarith

/-- A quotient has a finite number nearest to it exactly if it is not too large. -/
theorem isSome_ofRatio?_iff (negative : Bool) :
    (ofRatio? negative num den).isSome = true ↔ (num : ℚ) / den < overflow := by
  obtain ⟨hupper, hlower⟩ := stepExponent_bounds hnum hden
  have hnormal := nearest_normal hnum hden
  have hsignificand := nearest_significand_lt_iff hnum hden
  have hexponent : (nearest num den).2 = stepExponent num den := by rw [nearest_of_ne_zero hnum]
  have hbits : (ofRatio? negative num den).isSome = true ↔
      magnitudeBits (nearest num den).1 (nearest num den).2 < 2047 <<< 52 := by
    simp only [ofRatio?]
    split <;> simp_all
  rw [hbits, hexponent, magnitudeBits_lt_iff (significand_le num hden) hnormal, hsignificand]
  generalize stepExponent num den = exponent at *
  rcases lt_trichotomy exponent 971 with hless | rfl | hmore
  · have hsmall : (num : ℚ) / den < overflow :=
      (hupper.trans_le (two_zpow_mono (show exponent + 53 ≤ 1023 by omega))).trans
        two_zpow_lt_overflow
    exact iff_of_true (.inl (by omega)) hsmall
  · rw [overflow_eq]
    simp
  · have hlarge : (2 : ℚ) ^ (1024 : Int) ≤ num / den :=
      (two_zpow_mono (show 1024 ≤ exponent + 52 by omega)).trans (hlower.resolve_left (by omega))
    exact iff_of_false (by omega) (overflow_lt_two_zpow.trans_le hlarge).not_gt

end Quotient

theorem overflow_pos : 0 < overflow := by
  unfold overflow
  norm_num

theorem overflow_lt_ten_zpow {exponent : Int} (h : 400 < exponent) :
    overflow < (10 : ℚ) ^ exponent :=
  calc overflow < (2 : ℚ) ^ (1024 : Int) := overflow_lt_two_zpow
    _ ≤ 2 ^ ((3 : Int) * 400) := two_zpow_mono (by decide)
    _ = (2 ^ (3 : Int)) ^ (400 : Int) := zpow_mul _ _ _
    _ ≤ 10 ^ (400 : Int) := zpow_le_zpow_left₀ (by decide) (by positivity) (by norm_num)
    _ ≤ 10 ^ exponent := zpow_le_zpow_right₀ (by norm_num) h.le

theorem decimal_lt_two_zpow {digits : Nat} {exponent : Int} (hdigits : digits ≠ 0)
    (h : exponent ≤ 0) : (digits : ℚ) * 10 ^ exponent < 2 ^ ((digits.log2 : Int) + 1 + exponent) := by
  have hstep : (0 : ℚ) < 10 ^ exponent := by positivity
  have hten : (10 : ℚ) ^ exponent ≤ 2 ^ exponent := by
    obtain ⟨k, rfl⟩ : ∃ k : Nat, exponent = -k := ⟨exponent.natAbs, by omega⟩
    rw [zpow_neg, zpow_neg]
    refine inv_anti₀ (by positivity) (zpow_le_zpow_left₀ (Int.natCast_nonneg k) ?_ ?_) <;> norm_num
  calc (digits : ℚ) * 10 ^ exponent
      < 2 ^ ((digits.log2 : Int) + 1) * 10 ^ exponent :=
        mul_lt_mul_of_pos_right (log2_bounds hdigits).2 hstep
    _ ≤ 2 ^ ((digits.log2 : Int) + 1) * 2 ^ exponent := by gcongr
    _ = 2 ^ ((digits.log2 : Int) + 1 + exponent) := (zpow_add₀ two_ne_zero _ _).symm

theorem decimal_lt_overflow {digits : Nat} {exponent : Int} (hdigits : digits ≠ 0)
    (h : exponent + digits.log2 < -2000) : (digits : ℚ) * 10 ^ exponent < overflow :=
  calc (digits : ℚ) * 10 ^ exponent
      < 2 ^ ((digits.log2 : Int) + 1 + exponent) := decimal_lt_two_zpow hdigits (by omega)
    _ ≤ 2 ^ (1023 : Int) := two_zpow_mono (by omega)
    _ < overflow := two_zpow_lt_overflow

theorem isSome_ofDecimal?_iff (negative : Bool) (digits : Nat) (exponent : Int) :
    (ofDecimal? negative digits exponent).isSome = true ↔
      (digits : ℚ) * 10 ^ exponent < overflow := by
  have hzero : (ofRatio? negative 0 1).isSome = true := by
    cases negative <;> rfl
  by_cases hdigits : digits = 0
  · subst hdigits
    rw [ofDecimal?, if_pos rfl]
    exact iff_of_true hzero (by simpa using overflow_pos)
  · rw [ofDecimal?, if_neg hdigits]
    by_cases hlarge : 400 < exponent
    · rw [if_pos hlarge]
      have hone : (1 : ℚ) ≤ digits := by exact_mod_cast Nat.one_le_iff_ne_zero.mpr hdigits
      have hproduct : (10 : ℚ) ^ exponent ≤ digits * 10 ^ exponent :=
        le_mul_of_one_le_left (by positivity) hone
      exact iff_of_false nofun ((overflow_lt_ten_zpow hlarge).trans_le hproduct).not_gt
    · rw [if_neg hlarge]
      by_cases hsmall : exponent + digits.log2 < -2000
      · rw [if_pos hsmall]
        exact iff_of_true hzero (decimal_lt_overflow hdigits hsmall)
      · rw [if_neg hsmall]
        by_cases hsign : 0 ≤ exponent
        · obtain ⟨k, rfl⟩ := Int.eq_ofNat_of_zero_le hsign
          have hnum : digits * Nat.pow 10 k ≠ 0 :=
            Nat.mul_ne_zero hdigits (Nat.pow_pos (by decide)).ne'
          rw [if_pos hsign, Int.toNat_natCast, isSome_ofRatio?_iff hnum one_ne_zero]
          simp
        · obtain ⟨k, rfl⟩ : ∃ k : Nat, exponent = -k := ⟨exponent.natAbs, by omega⟩
          have hden : Nat.pow 10 k ≠ 0 := (Nat.pow_pos (by decide)).ne'
          rw [if_neg hsign, neg_neg, Int.toNat_natCast, isSome_ofRatio?_iff hdigits hden]
          simp [div_eq_mul_inv]

end SpanStore.Binary64
