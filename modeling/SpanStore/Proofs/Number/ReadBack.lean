import Mathlib
import SpanStore.Proofs.Number.Finite

/-!
Which quotients a floating-point number is the nearest one to: those between the middles of the
gaps to its neighbours, the middles too when its significand is even. Below a power of two the
gap is only half as wide as above it.
-/
namespace SpanStore.Binary64

def isFinite (f : Float) : Bool :=
  match parts f with
  | .finite _ _ _ => true
  | _ => false

theorem isFinite_iff {f : Float} : isFinite f = true ↔
    ∃ negative significand exponent, parts f = .finite negative significand exponent := by
  rw [isFinite]
  cases parts f <;> simp

structure Canonical (significand : Nat) (exponent : Int) : Prop where
  pos : 0 < significand
  lt : significand < 2 ^ 53
  least : -1074 ≤ exponent
  most : exponent ≤ 971
  normal : exponent = -1074 ∨ 2 ^ 52 ≤ significand

theorem bits_of_parts {f : Float} {negative : Bool} {significand : Nat} {exponent : Int}
    (h : parts f = .finite negative significand exponent) :
    f.toBits.toNat = (if negative then 1 <<< 63 else 0) + magnitudeBits significand exponent ∧
      (significand = 0 ∧ exponent = -1074 ∨ Canonical significand exponent) := by
  have hbits := f.toBits.toNat_lt
  simp only [parts] at h
  generalize f.toBits.toNat = bits at *
  rw [Nat.shiftRight_eq_div_pow, Nat.shiftRight_eq_div_pow, Nat.shiftLeft_eq, Nat.shiftLeft_eq,
    Nat.one_mul, Nat.one_mul] at h
  have hsign : (if (bits / 2 ^ 63 == 1) = true then 1 <<< 63 else 0) = bits / 2 ^ 63 * 2 ^ 63 := by
    simp only [Nat.shiftLeft_eq, beq_iff_eq]
    split <;> omega
  split at h
  · split at h <;> cases h
  split at h
  · rename_i hfield
    obtain ⟨rfl, rfl, rfl⟩ := Parts.finite.inj h
    rw [hsign, magnitudeBits, Nat.shiftLeft_eq]
    refine ⟨by omega, ?_⟩
    rcases Nat.eq_zero_or_pos (bits % 2 ^ 52) with hzero | hpos
    · exact .inl ⟨hzero, rfl⟩
    · exact .inr ⟨hpos, by omega, by decide, by decide, .inl rfl⟩
  · obtain ⟨rfl, rfl, rfl⟩ := Parts.finite.inj h
    rw [hsign, magnitudeBits, Nat.shiftLeft_eq]
    exact ⟨by omega, .inr ⟨by omega, by omega, by omega, by omega, .inr (by omega)⟩⟩

/-- Four times the lower end of the quotients that read back, in steps of the exponent. -/
def lowest (significand : Nat) (exponent : Int) : Nat :=
  4 * significand - if significand = 1 <<< 52 ∧ exponent ≠ -1074 then 1 else 2

/-- The quotient lies between the halves of the gaps to the neighbours, ends included when the
significand is even. -/
def ReadsAs (significand : Nat) (exponent : Int) (x : ℚ) : Prop :=
  if significand % 2 = 0 then
    lowest significand exponent * (2 ^ exponent / 4) ≤ x ∧
      x ≤ (4 * significand + 2 : Nat) * (2 ^ exponent / 4)
  else
    lowest significand exponent * (2 ^ exponent / 4) < x ∧
      x < (4 * significand + 2 : Nat) * (2 ^ exponent / 4)

namespace ReadsAs

variable {significand : Nat} {exponent : Int} {x : ℚ}

theorem bounds (h : ReadsAs significand exponent x) :
    lowest significand exponent * (2 ^ exponent / 4) ≤ x ∧
      x ≤ (4 * significand + 2 : Nat) * (2 ^ exponent / 4) := by
  rw [ReadsAs] at h
  split at h
  · exact h
  · exact ⟨h.1.le, h.2.le⟩

theorem strict (h : ReadsAs significand exponent x) (hodd : significand % 2 = 1) :
    lowest significand exponent * (2 ^ exponent / 4) < x ∧
      x < (4 * significand + 2 : Nat) * (2 ^ exponent / 4) := by
  rw [ReadsAs, if_neg (by omega)] at h
  exact h

end ReadsAs

theorem le_lowest (significand : Nat) (exponent : Int) :
    4 * significand - 2 ≤ lowest significand exponent := by
  unfold lowest
  split <;> omega

theorem roundDiv_eq {num den m : Nat} (hden : 0 < den) (hpos : 0 < m)
    (hlower : (4 * m - 2) * den ≤ 4 * num) (hupper : 4 * num ≤ (4 * m + 2) * den)
    (hodd : m % 2 = 1 → (4 * m - 2) * den ≠ 4 * num ∧ 4 * num ≠ (4 * m + 2) * den) :
    roundDiv num den = m := by
  have hdivide := Nat.div_add_mod num den
  have hrest := Nat.mod_lt num hden
  have hall : den ≤ m * den := Nat.le_mul_of_pos_left den hpos
  rw [Nat.mul_comm] at hdivide
  rw [Nat.sub_mul, Nat.mul_assoc] at hlower hodd
  rw [Nat.add_mul, Nat.mul_assoc] at hupper hodd
  simp only [roundDiv]
  rcases Nat.lt_trichotomy (num / den) m with hless | hequal | hmore
  · have hstep : (num / den + 1) * den ≤ m * den := Nat.mul_le_mul_right den hless
    rw [Nat.add_mul, Nat.one_mul] at hstep
    rcases Nat.lt_or_ge (num / den + 1) m with hfar | hnear
    · have hstep : (num / den + 1 + 1) * den ≤ m * den := Nat.mul_le_mul_right den hfar
      rw [Nat.add_mul, Nat.add_mul, Nat.one_mul] at hstep
      omega
    · have hm : m = num / den + 1 := by omega
      rw [hm, Nat.add_mul, Nat.one_mul] at hlower hupper hodd
      split <;> omega
  · rw [← hequal] at hlower hupper hodd ⊢
    split <;> omega
  · have hstep : (m + 1) * den ≤ num / den * den := Nat.mul_le_mul_right den hmore
    rw [Nat.add_mul, Nat.one_mul] at hstep
    split <;> omega

theorem neg_1074_le_stepExponent (num den : Nat) : -1074 ≤ stepExponent num den := by
  unfold stepExponent
  exact le_max_right _ _

section Quotient

variable {num den : Nat} (hden : den ≠ 0)

include hden

theorem le_quotient_iff (exponent : Int) (a : Nat) :
    a * (2 ^ exponent / 4) ≤ (num : ℚ) / den ↔
      a * (scale num den (-exponent)).2 ≤ 4 * (scale num den (-exponent)).1 := by
  have hscaled : (0 : ℚ) < ((scale num den (-exponent)).2 : ℚ) := by
    exact_mod_cast scale_den_pos num (Nat.pos_of_ne_zero hden) (-exponent)
  have hstep : (0 : ℚ) < 2 ^ exponent := by positivity
  rw [← scaled_quotient num den exponent, mul_div_assoc', mul_div_right_comm,
    mul_le_mul_iff_left₀ hstep, div_le_div_iff₀ (by norm_num) hscaled, mul_comm _ (4 : ℚ)]
  exact_mod_cast Iff.rfl

theorem quotient_le_iff (exponent : Int) (a : Nat) :
    (num : ℚ) / den ≤ a * (2 ^ exponent / 4) ↔
      4 * (scale num den (-exponent)).1 ≤ a * (scale num den (-exponent)).2 := by
  have hscaled : (0 : ℚ) < ((scale num den (-exponent)).2 : ℚ) := by
    exact_mod_cast scale_den_pos num (Nat.pos_of_ne_zero hden) (-exponent)
  have hstep : (0 : ℚ) < 2 ^ exponent := by positivity
  rw [← scaled_quotient num den exponent, mul_div_assoc', mul_div_right_comm,
    mul_le_mul_iff_left₀ hstep, div_le_div_iff₀ hscaled (by norm_num), mul_comm _ (4 : ℚ)]
  exact_mod_cast Iff.rfl

end Quotient

theorem two_zpow_eq (exponent : Int) (k : Nat) :
    (2 : ℚ) ^ (exponent + k) = (4 * 2 ^ k : Nat) * (2 ^ exponent / 4) := by
  rw [zpow_add₀ two_ne_zero, zpow_natCast]
  push_cast
  ring

namespace ReadsAs

variable {significand : Nat} {exponent : Int} {x : ℚ} (h : Canonical significand exponent)
  (hx : ReadsAs significand exponent x)

include h hx

theorem least : (2 : ℚ) ^ (-1075 : Int) ≤ x := by
  have hpos := h.pos
  have htwo : 2 ≤ lowest significand exponent := by
    have hlowest := le_lowest significand exponent
    omega
  calc (2 : ℚ) ^ (-1075 : Int) = (2 : Nat) * (2 ^ (-1074 : Int) / 4) := by
        rw [show (-1075 : Int) = -1 + -1074 from rfl, zpow_add₀ two_ne_zero, zpow_neg_one]
        ring
    _ ≤ lowest significand exponent * (2 ^ exponent / 4) := by
        have := two_zpow_mono h.least
        gcongr
    _ ≤ x := hx.bounds.1

theorem pos : 0 < x := lt_of_lt_of_le (by positivity) (hx.least h)

theorem le_overflow : x ≤ overflow := by
  have hlt := h.lt
  calc x ≤ (4 * significand + 2 : Nat) * (2 ^ exponent / 4) := hx.bounds.2
    _ ≤ (4 * (2 ^ 53 - 1) + 2 : Nat) * (2 ^ (971 : Int) / 4) := by
        have := two_zpow_mono h.most
        gcongr
        omega
    _ = overflow := by
        rw [overflow_eq]
        generalize (2 : ℚ) ^ (971 : Int) = step
        push_cast
        ring

end ReadsAs

section Nearest

variable {significand num den : Nat} {exponent : Int} (h : Canonical significand exponent)
  (hden : den ≠ 0) (hx : ReadsAs significand exponent (num / den))

include h hx

theorem ne_zero_of_readsAs : num ≠ 0 := by
  rintro rfl
  have hpos := hx.pos h
  rw [Nat.cast_zero, zero_div] at hpos
  exact lt_irrefl 0 hpos

include hden

/-- The exponent that `nearest` settles on is the one of the number, or the one below if the number
is a power of two. -/
theorem stepExponent_of_readsAs : stepExponent num den = exponent ∨
    stepExponent num den = exponent - 1 ∧ significand = 2 ^ 52 := by
  obtain ⟨hupper, hlower⟩ := stepExponent_bounds (ne_zero_of_readsAs h hx) hden
  have hleast := neg_1074_le_stepExponent num den
  obtain ⟨hlowest, hhighest⟩ := hx.bounds
  have hstep : (0 : ℚ) < 2 ^ exponent / 4 := by positivity
  have hlt := h.lt
  have hleastExponent := h.least
  generalize stepExponent num den = t at *
  have hexponents {k l : Int} (hkl : (2 : ℚ) ^ k < 2 ^ l) : k < l :=
    (zpow_lt_zpow_iff_right₀ one_lt_two).mp hkl
  have habove {k : Nat} (hk : 4 * 2 ^ k ≤ lowest significand exponent) : exponent + k < t + 53 := by
    refine hexponents (lt_of_le_of_lt ?_ (hlowest.trans_lt hupper))
    rw [two_zpow_eq]
    exact mul_le_mul_of_nonneg_right (by exact_mod_cast hk) hstep.le
  rcases lt_trichotomy t exponent with hless | hequal | hmore
  · have hnormal := h.normal.resolve_left (by omega)
    have hfar : exponent + (51 : Nat) < t + 53 :=
      habove (by have := le_lowest significand exponent; omega)
    by_cases hpower : significand = 2 ^ 52
    · exact .inr ⟨by omega, hpower⟩
    · have hnear : exponent + (52 : Nat) < t + 53 :=
        habove (by have := le_lowest significand exponent; omega)
      omega
  · exact .inl hequal
  · have hbelow : (2 : ℚ) ^ (t + 52) < 2 ^ (exponent + (53 : Nat)) := by
      refine lt_of_le_of_lt ((hlower.resolve_left (by omega)).trans hhighest) ?_
      rw [two_zpow_eq]
      exact mul_lt_mul_of_pos_right (Nat.cast_lt.mpr (by omega)) hstep
    have := hexponents hbelow
    omega

theorem roundDiv_of_readsAs :
    roundDiv (scale num den (-exponent)).1 (scale num den (-exponent)).2 = significand := by
  obtain ⟨hlower, hupper⟩ := hx.bounds
  have hlowest := Nat.mul_le_mul_right (scale num den (-exponent)).2
    (le_lowest significand exponent)
  rw [le_quotient_iff hden] at hlower
  rw [quotient_le_iff hden] at hupper
  refine roundDiv_eq (scale_den_pos num (Nat.pos_of_ne_zero hden) _) h.pos (hlowest.trans hlower)
    hupper fun hodd => ?_
  obtain ⟨hover, hunder⟩ := hx.strict hodd
  rw [← not_le, quotient_le_iff hden, not_le] at hover
  rw [← not_le, le_quotient_iff hden, not_le] at hunder
  exact ⟨(hlowest.trans_lt hover).ne, hunder.ne⟩

theorem roundDiv_of_readsAs_power (hbelow : stepExponent num den = exponent - 1)
    (hpower : significand = 2 ^ 52) :
    roundDiv (scale num den (-(exponent - 1))).1 (scale num den (-(exponent - 1))).2 = 2 ^ 53 := by
  have hleast := neg_1074_le_stepExponent num den
  have hupper := (stepExponent_bounds (ne_zero_of_readsAs h hx) hden).1
  have hlower := hx.bounds.1
  have hlowest : lowest significand exponent = 4 * 2 ^ 52 - 1 := by
    rw [lowest, if_pos ⟨hpower, by omega⟩, hpower]
  have hhalf : (2 : ℚ) ^ exponent = 2 * 2 ^ (exponent - 1) := by
    rw [← zpow_one_add₀ two_ne_zero]
    congr 1
    omega
  have hdouble : ((4 * 2 ^ 52 - 1 : Nat) : ℚ) * (2 ^ exponent / 4) =
      (2 * (4 * 2 ^ 52 - 1) : Nat) * (2 ^ (exponent - 1) / 4) := by
    rw [hhalf, Nat.cast_mul]
    push_cast
    ring
  rw [hlowest, hdouble, le_quotient_iff hden] at hlower
  rw [hbelow, show (53 : Int) = (53 : Nat) from rfl, two_zpow_eq, ← not_le,
    le_quotient_iff hden, not_le] at hupper
  refine roundDiv_eq (scale_den_pos num (Nat.pos_of_ne_zero hden) _) (by decide) ?_ ?_ nofun
  · exact hlower
  · exact hupper.le.trans (Nat.mul_le_mul_right _ (Nat.le_add_right _ 2))

theorem magnitudeBits_nearest : magnitudeBits (nearest num den).1 (nearest num den).2 =
    magnitudeBits significand exponent := by
  rw [nearest_of_ne_zero (ne_zero_of_readsAs h hx)]
  rcases stepExponent_of_readsAs h hden hx with hsame | ⟨hbelow, hpower⟩
  · rw [hsame, roundDiv_of_readsAs h hden hx]
  · have hleast := neg_1074_le_stepExponent num den
    rw [hbelow, roundDiv_of_readsAs_power h hden hx hbelow hpower, hpower]
    simp only [magnitudeBits, Nat.shiftLeft_eq]
    omega

end Nearest

section Text

variable {f : Float} {negative : Bool} {significand : Nat} {exponent : Int}
  (hparts : parts f = .finite negative significand exponent)

include hparts

theorem ofRatio?_of_magnitudeBits {num den : Nat}
    (h : magnitudeBits (nearest num den).1 (nearest num den).2 =
      magnitudeBits significand exponent) : ofRatio? negative num den = some f := by
  obtain ⟨hbits, hcanonical⟩ := bits_of_parts hparts
  have hfits : magnitudeBits significand exponent < 2047 <<< 52 := by
    rcases hcanonical with ⟨rfl, rfl⟩ | hcanonical
    · decide
    · have hmost := hcanonical.most
      have hlt := hcanonical.lt
      rw [magnitudeBits_lt_iff hlt.le hcanonical.normal]
      omega
  have hwhole : (if negative then (1 <<< 63) + magnitudeBits significand exponent
      else magnitudeBits significand exponent) = f.toBits.toNat := by
    rw [hbits]
    split
    · rfl
    · exact (Nat.zero_add _).symm
  simp only [ofRatio?]
  rw [h, if_pos hfits, hwhole, UInt64.ofNat_toNat, Float.ofBits_toBits]

theorem ofDecimal?_zero (hzero : significand = 0) (exponent' : Int) :
    ofDecimal? negative 0 exponent' = some f := by
  obtain ⟨-, ⟨-, rfl⟩ | hcanonical⟩ := bits_of_parts hparts
  · rw [ofDecimal?, if_pos rfl]
    refine ofRatio?_of_magnitudeBits hparts ?_
    rw [nearest_zero, hzero]
  · exact absurd hzero hcanonical.pos.ne'

theorem ofDecimal?_of_readsAs {digits : Nat} {place : Int} (hpos : significand ≠ 0)
    (hx : ReadsAs significand exponent (digits * 10 ^ place)) :
    ofDecimal? negative digits place = some f := by
  have h := ((bits_of_parts hparts).2).resolve_left fun hzero => hpos hzero.1
  have hratio {num den : Nat} (hden : den ≠ 0) (hquotient : (digits : ℚ) * 10 ^ place = num / den) :
      ofRatio? negative num den = some f :=
    ofRatio?_of_magnitudeBits hparts (magnitudeBits_nearest h hden (hquotient ▸ hx))
  have hdigits : digits ≠ 0 := by
    rintro rfl
    simpa using hx.pos h
  have hone : (1 : ℚ) ≤ digits := by exact_mod_cast Nat.one_le_iff_ne_zero.mpr hdigits
  have hlarge : ¬ 400 < place := fun hplace =>
    ((overflow_lt_ten_zpow hplace).trans_le (le_mul_of_one_le_left (by positivity) hone)).not_ge
      (hx.le_overflow h)
  have hsmall : ¬ place + digits.log2 < -2000 := fun hplace =>
    ((decimal_lt_two_zpow hdigits (by omega)).trans_le
      (two_zpow_mono (show (digits.log2 : Int) + 1 + place ≤ -1075 by omega))).not_ge (hx.least h)
  rw [ofDecimal?, if_neg hdigits, if_neg hlarge, if_neg hsmall]
  by_cases hsign : 0 ≤ place
  · obtain ⟨k, rfl⟩ := Int.eq_ofNat_of_zero_le hsign
    rw [if_pos hsign, Int.toNat_natCast]
    exact hratio one_ne_zero (by simp)
  · obtain ⟨k, rfl⟩ : ∃ k : Nat, place = -k := ⟨place.natAbs, by omega⟩
    rw [if_neg hsign, neg_neg, Int.toNat_natCast]
    exact hratio (Nat.pow_pos (by decide)).ne' (by simp [div_eq_mul_inv])

end Text

end SpanStore.Binary64
