import Mathlib.Algebra.Order.Floor.Semifield
import Mathlib.Data.Rat.Floor
import SpanStore.Calendar.Instant
import SpanStore.Proofs.Number.Rounding

/-!
The day of an instant in whole milliseconds. Neither the division into seconds nor the rounding of
the fraction to microseconds carries an instant over midnight, so its day is its quotient by the
length of a day.
-/
namespace SpanStore.Calendar

open Binary64 (nearest scale roundDiv magnitudeBits value)

namespace Finite

def magnitude (t : Finite) : ℚ := value (t.significand, t.exponent)

theorem magnitude_ofRatio_error (negative : Bool) (num : Nat) {den : Nat} (hden : den ≠ 0) :
    |(ofRatio negative num den).magnitude - num / den| ≤
      max ((num : ℚ) / den / 2 ^ 53) (2 ^ (-1075 : Int)) :=
  Binary64.nearest_error num hden

theorem ratio_pos (t : Finite) : 0 < t.ratio.2 :=
  Binary64.scale_den_pos t.significand Nat.one_pos t.exponent

theorem ratio_eq_magnitude (t : Finite) : (t.ratio.1 : ℚ) / t.ratio.2 = t.magnitude := by
  rw [ratio, Binary64.scale_quotient, Nat.cast_one, div_one]
  rfl

theorem whole_eq_floor (t : Finite) : t.whole = ⌊t.magnitude⌋₊ := by
  rw [← t.ratio_eq_magnitude, Nat.floor_div_eq_div]
  rfl

theorem rest_eq (t : Finite) :
    ((t.ratio.1 % t.ratio.2 : Nat) : ℚ) / t.ratio.2 = t.magnitude - t.whole := by
  have hden : (t.ratio.2 : ℚ) ≠ 0 := by exact_mod_cast t.ratio_pos.ne'
  have hdivide : (t.ratio.2 : ℚ) * (t.ratio.1 / t.ratio.2 : Nat) + (t.ratio.1 % t.ratio.2 : Nat) =
      t.ratio.1 := by
    exact_mod_cast Nat.div_add_mod t.ratio.1 t.ratio.2
  rw [← t.ratio_eq_magnitude, whole, ← hdivide]
  field_simp
  ring

theorem micros_error (t : Finite) :
    |(t.micros : ℚ) - (t.magnitude - t.whole) * 1000000| ≤ 1 := by
  have hden := t.ratio_pos
  have hrest := t.rest_eq
  have hfraction : ((t.ratio.1 % t.ratio.2 * 1000000 : Nat) : ℚ) / t.ratio.2 =
      (t.magnitude - t.whole) * 1000000 := by
    rw [← hrest]
    push_cast
    ring
  have hsmall : (t.magnitude - t.whole) * 1000000 ≤ 1000000 := by
    have hlt : ((t.ratio.1 % t.ratio.2 : Nat) : ℚ) ≤ t.ratio.2 := by
      exact_mod_cast (Nat.mod_lt _ hden).le
    rw [← hrest]
    linarith [div_le_one_of_le₀ hlt (Nat.cast_nonneg _)]
  have hproduct := magnitude_ofRatio_error false (t.ratio.1 % t.ratio.2 * 1000000) hden.ne'
  rw [hfraction] at hproduct
  unfold micros
  simp only
  generalize ofRatio false (t.ratio.1 % t.ratio.2 * 1000000) t.ratio.2 = product at *
  have hround := Binary64.roundDiv_error product.ratio.1 product.ratio_pos
  rw [ratio_eq_magnitude] at hround
  have hbound : max ((t.magnitude - t.whole) * 1000000 / 2 ^ 53) ((2 : ℚ) ^ (-1075 : Int)) ≤
      1 / 2 := by
    refine max_le ?_ ?_
    · rw [div_le_iff₀ (by positivity)]
      norm_num
      linarith
    · calc (2 : ℚ) ^ (-1075 : Int) ≤ 2 ^ (-1 : Int) := zpow_le_zpow_right₀ one_le_two (by decide)
        _ = 1 / 2 := by norm_num
  calc |(roundDiv product.ratio.1 product.ratio.2 : ℚ) - (t.magnitude - t.whole) * 1000000|
      ≤ |(roundDiv product.ratio.1 product.ratio.2 : ℚ) - product.magnitude| +
          |product.magnitude - (t.magnitude - t.whole) * 1000000| := abs_sub_le _ _ _
    _ ≤ 1 / 2 + 1 / 2 := add_le_add hround (hproduct.trans hbound)
    _ = 1 := by norm_num

theorem whole_eq_of_near {t : Finite} {s : Nat} {x : ℚ} (herror : |t.magnitude - x| ≤ 1 / 10000)
    (hlower : s + 1 / 1000 ≤ x) (hupper : x ≤ s + 999 / 1000) : t.whole = s := by
  obtain ⟨hbelow, habove⟩ := abs_le.mp herror
  have hs : (0 : ℚ) ≤ s := Nat.cast_nonneg s
  rw [whole_eq_floor, Nat.floor_eq_iff (by linarith)]
  constructor <;> linarith

theorem micros_of_near {t : Finite} {s : Nat} {x : ℚ} (herror : |t.magnitude - x| ≤ 1 / 10000)
    (hlower : s + 1 / 1000 ≤ x) (hupper : x ≤ s + 999 / 1000) :
    0 < t.micros ∧ t.micros < 1000000 := by
  obtain ⟨hbelow, habove⟩ := abs_le.mp herror
  obtain ⟨hmicros_below, hmicros_above⟩ := abs_le.mp t.micros_error
  rw [whole_eq_of_near herror hlower hupper] at hmicros_below hmicros_above
  constructor
  · have hpos : (0 : ℚ) < t.micros := by linarith
    exact_mod_cast hpos
  · have hlt : (t.micros : ℚ) < 1000000 := by linarith
    exact_mod_cast hlt

theorem whole_of_magnitude {t : Finite} {s : Nat} (h : t.magnitude = s) :
    t.whole = s ∧ t.micros = 0 := by
  have hwhole : t.whole = s := by rw [whole_eq_floor, h, Nat.floor_natCast]
  have hrest := t.rest_eq
  rw [hwhole, h, sub_self, div_eq_zero_iff] at hrest
  have hzero : t.ratio.1 % t.ratio.2 = 0 := by
    rcases hrest with hrest | hrest
    · exact_mod_cast hrest
    · exact absurd (by exact_mod_cast hrest) t.ratio_pos.ne'
  refine ⟨hwhole, ?_⟩
  have hnone (den : Nat) : (ofRatio false 0 den).ratio.1 = 0 := by
    simp [ofRatio, ratio, scale]
  rw [micros, hzero, Nat.zero_mul]
  simp only [hnone]
  exact Binary64.roundDiv_zero (ratio_pos _)

theorem wholeSeconds_of_micros_zero {t : Finite} (h : t.micros = 0) :
    wholeSeconds t = if t.negative then -(t.whole : Int) else t.whole := by
  simp [wholeSeconds, h]

theorem wholeSeconds_of_micros {t : Finite} (hpos : 0 < t.micros) (hlt : t.micros < 1000000) :
    wholeSeconds t = if t.negative then -(t.whole : Int) - 1 else t.whole := by
  rw [wholeSeconds, if_neg hpos.ne', if_neg (Nat.not_le.mpr hlt)]

theorem wholeSeconds_le {t : Finite} (h : t.negative = true) :
    wholeSeconds t ≤ -(t.whole : Int) := by
  rw [wholeSeconds, if_pos h]
  split <;> omega

theorem le_wholeSeconds {t : Finite} (h : t.negative = false) :
    (t.whole : Int) ≤ wholeSeconds t := by
  rw [wholeSeconds, h, if_neg Bool.false_ne_true]
  split <;> omega

end Finite

def nearestSeconds (t : Int) : Finite := .ofRatio (t < 0) t.natAbs 1000

theorem seconds_whole (t : Int) : seconds (.whole t) = (nearestSeconds t).check := rfl

@[simp] theorem nearestSeconds_negative (t : Int) : (nearestSeconds t).negative = decide (t < 0) :=
  rfl

theorem nearestSeconds_error (t : Int) :
    |(nearestSeconds t).magnitude - (t.natAbs : ℚ) / 1000| ≤
      max ((t.natAbs : ℚ) / 1000 / 2 ^ 53) (2 ^ (-1075 : Int)) := by
  have herror := Finite.magnitude_ofRatio_error (t < 0) t.natAbs (show 1000 ≠ 0 by decide)
  exact_mod_cast herror

section Near

def Near (t : Int) : Prop := t.natAbs < 2 ^ 48

variable {t : Int}

theorem Near.error (h : Near t) :
    |(nearestSeconds t).magnitude - (t.natAbs : ℚ) / 1000| ≤ 1 / 10000 := by
  refine (nearestSeconds_error t).trans (max_le ?_ ?_)
  · have hsize : (t.natAbs : ℚ) < 2 ^ 48 := by exact_mod_cast h
    rw [div_div, div_le_iff₀ (by positivity)]
    norm_num at hsize ⊢
    linarith
  · calc (2 : ℚ) ^ (-1075 : Int) ≤ 2 ^ (-14 : Int) := zpow_le_zpow_right₀ one_le_two (by decide)
      _ ≤ 1 / 10000 := by norm_num

theorem Near.wholeSeconds_of_dvd (h : Near t) (hexact : t.natAbs % 1000 = 0) :
    wholeSeconds (nearestSeconds t) = t / 1000 := by
  have hmagnitude : (nearestSeconds t).magnitude = (t.natAbs / 1000 : Nat) := by
    have hmillis : t.natAbs = t.natAbs / 1000 * 1000 := by omega
    have hsize : t.natAbs / 1000 < 2 ^ 53 := by
      unfold Near at h
      omega
    have hvalue := Binary64.value_nearest_whole hsize (show 1000 ≠ 0 by decide)
    rw [← hmillis] at hvalue
    exact hvalue
  obtain ⟨hwhole, hmicros⟩ := Finite.whole_of_magnitude hmagnitude
  rw [Finite.wholeSeconds_of_micros_zero hmicros, hwhole, nearestSeconds_negative]
  simp only [decide_eq_true_eq]
  split <;> omega

theorem Near.wholeSeconds_of_not_dvd (h : Near t) (hexact : t.natAbs % 1000 ≠ 0) :
    wholeSeconds (nearestSeconds t) = t / 1000 := by
  have hmillis : (t.natAbs : ℚ) / 1000 =
      (t.natAbs / 1000 : Nat) + (t.natAbs % 1000 : Nat) / 1000 := by
    have hdivide : (1000 : ℚ) * (t.natAbs / 1000 : Nat) + (t.natAbs % 1000 : Nat) = t.natAbs := by
      exact_mod_cast Nat.div_add_mod t.natAbs 1000
    rw [← hdivide]
    ring
  have hleast : (1 : ℚ) ≤ (t.natAbs % 1000 : Nat) := by
    exact_mod_cast Nat.pos_of_ne_zero hexact
  have hmost : ((t.natAbs % 1000 : Nat) : ℚ) ≤ 999 := by
    exact_mod_cast Nat.lt_succ_iff.mp (Nat.mod_lt t.natAbs (show 0 < 1000 by decide))
  have hlower : ((t.natAbs / 1000 : Nat) : ℚ) + 1 / 1000 ≤ t.natAbs / 1000 := by
    rw [hmillis]
    linarith
  have hupper : (t.natAbs : ℚ) / 1000 ≤ (t.natAbs / 1000 : Nat) + 999 / 1000 := by
    rw [hmillis]
    linarith
  obtain ⟨hpos, hlt⟩ := Finite.micros_of_near h.error hlower hupper
  rw [Finite.wholeSeconds_of_micros hpos hlt, Finite.whole_eq_of_near h.error hlower hupper,
    nearestSeconds_negative]
  simp only [decide_eq_true_eq]
  split <;> omega

theorem Near.wholeSeconds (h : Near t) : wholeSeconds (nearestSeconds t) = t / 1000 := by
  by_cases hexact : t.natAbs % 1000 = 0
  · exact h.wholeSeconds_of_dvd hexact
  · exact h.wholeSeconds_of_not_dvd hexact

theorem Near.seconds (h : Near t) : seconds (.whole t) = .ok (nearestSeconds t) := by
  have hsize : ((t.natAbs : Nat) : ℚ) / (1000 : Nat) < 2 ^ (48 : Int) := by
    have hmillis : (t.natAbs : ℚ) < 2 ^ 48 := by exact_mod_cast h
    rw [div_lt_iff₀ (by norm_num)]
    norm_num at hmillis ⊢
    linarith
  have hexponent := Binary64.nearest_exponent_lt (by decide) hsize
  have hsignificand := Binary64.significand_le t.natAbs (show 1000 ≠ 0 by decide)
  have hbits : magnitudeBits (nearestSeconds t).significand (nearestSeconds t).exponent <
      2047 <<< 52 := by
    rw [magnitudeBits, Nat.shiftLeft_eq, Nat.shiftLeft_eq]
    simp only [nearestSeconds, Finite.ofRatio]
    omega
  rw [seconds_whole, Finite.check, if_pos hbits]

end Near

theorem whole_of_far {t : Int} (h : ¬ Near t) : 281474976710 ≤ (nearestSeconds t).whole := by
  have hsize : (2 : ℚ) ^ 48 ≤ t.natAbs := by exact_mod_cast Nat.not_lt.mp h
  have herror : |(nearestSeconds t).magnitude - (t.natAbs : ℚ) / 1000| ≤
      (t.natAbs : ℚ) / 1000 / 2 ^ 53 := by
    refine (nearestSeconds_error t).trans (max_le le_rfl ?_)
    calc (2 : ℚ) ^ (-1075 : Int) ≤ 2 ^ (-53 : Int) := zpow_le_zpow_right₀ one_le_two (by decide)
      _ ≤ (t.natAbs : ℚ) / 1000 / 2 ^ 53 := by
        rw [zpow_neg, ← one_div]
        norm_num at hsize ⊢
        linarith
  have hbelow := (abs_le.mp herror).1
  rw [Finite.whole_eq_floor, Nat.le_floor_iff' (by decide)]
  norm_num at hsize hbelow ⊢
  linarith

theorem wholeSeconds_of_far {t : Int} (h : ¬ Near t) :
    wholeSeconds (nearestSeconds t) ≤ -281474976710 ∨
      281474976710 ≤ wholeSeconds (nearestSeconds t) := by
  have hwhole := whole_of_far h
  cases hnegative : (nearestSeconds t).negative with
  | true =>
      have hle := Finite.wholeSeconds_le hnegative
      omega
  | false =>
      have hle := Finite.le_wholeSeconds hnegative
      omega

theorem dayOf_eq_ok_iff {millis : Quantity} {day : Int} :
    dayOf millis = .ok day ↔ ∃ t, seconds millis = .ok t ∧ day = wholeSeconds t / 86400 ∧
      -(epoch : Int) ≤ day ∧ day ≤ (lastDay : Int) - epoch := by
  have hepoch : (epoch : Int) = 719162 := rfl
  have hlast : (lastDay : Int) = 3652058 := rfl
  rw [dayOf]
  cases seconds millis with
  | error f => simp
  | ok t =>
      simp only [Except.ok.injEq, exists_eq_left']
      constructor
      · intro h
        split at h
        · cases h
        · split at h
          · rename_i hcalendar
            obtain rfl := Except.ok.inj h
            exact ⟨rfl, hcalendar⟩
          · split at h <;> cases h
      · rintro ⟨rfl, hcalendar⟩
        rw [if_neg (by omega), if_pos hcalendar]

theorem seconds_whole_eq_ok {t : Int} {s : Finite} (h : seconds (.whole t) = .ok s) :
    s = nearestSeconds t := by
  rw [seconds_whole, Finite.check] at h
  split at h
  · exact (Except.ok.inj h).symm
  · cases h

/-- An instant has a day exactly if its quotient by the length of a day is in the calendar. -/
theorem dayOf_whole_iff {t day : Int} :
    dayOf (.whole t) = .ok day ↔
      day = t / 86400000 ∧ -(epoch : Int) ≤ day ∧ day ≤ (lastDay : Int) - epoch := by
  rw [dayOf_eq_ok_iff]
  by_cases hnear : Near t
  · simp only [hnear.seconds, Except.ok.injEq, exists_eq_left', hnear.wholeSeconds]
    rw [show t / 1000 / 86400 = t / 86400000 by omega]
  · have hepoch : (epoch : Int) = 719162 := rfl
    have hlast : (lastDay : Int) = 3652058 := rfl
    have hsize : ¬ t.natAbs < 281474976710656 := hnear
    have hfar := wholeSeconds_of_far hnear
    constructor
    · rintro ⟨s, hs, hday, hcalendar⟩
      rw [seconds_whole_eq_ok hs] at hday
      omega
    · rintro ⟨hday, hcalendar⟩
      omega

end SpanStore.Calendar
