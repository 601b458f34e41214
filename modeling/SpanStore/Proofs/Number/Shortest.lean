import SpanStore.Number.Shortest
import SpanStore.Proofs.Number.ReadBack

namespace SpanStore.Shortest

open Binary64

/-- A quarter of the step of an exponent, counted in steps of a grid of decimals. -/
def grid (exponent place : Int) : Nat × Nat :=
  let (up, down) := scale 1 4 exponent
  if 0 ≤ place then (up, down * Nat.pow 10 place.toNat) else (up * Nat.pow 10 (-place).toNat, down)

def hits (significand : Nat) (exponent place : Int) (k : Nat) : Bool :=
  let (up, down) := grid exponent place
  let low := lowest significand exponent * up
  let high := (4 * significand + 2) * up
  if significand % 2 = 0 then low ≤ k * down && k * down ≤ high
  else low < k * down && k * down < high

theorem onGrid?_eq (significand : Nat) (exponent place : Int) :
    onGrid? significand exponent place =
      let (up, down) := grid exponent place
      let value := 4 * significand * up
      let k := value / down
      match hits significand exponent place k, hits significand exponent place (k + 1) with
      | true, true => some (roundDiv value down)
      | true, false => some k
      | false, true => some (k + 1)
      | false, false => none := by
  rfl

section Grid

variable (exponent place : Int)

theorem grid_pos : 0 < (grid exponent place).1 ∧ 0 < (grid exponent place).2 := by
  have hten (k : Nat) : 0 < Nat.pow 10 k := Nat.pow_pos (by decide)
  have hdown := scale_den_pos 1 (show 0 < 4 by decide) exponent
  have hup : 0 < (scale 1 4 exponent).1 := by
    rw [scale]
    split
    · exact Nat.shiftLeft_pos_iff.mpr one_pos
    · exact one_pos
  simp only [grid]
  split
  · exact ⟨hup, Nat.mul_pos hdown (hten _)⟩
  · exact ⟨Nat.mul_pos hup (hten _), hdown⟩

theorem grid_quotient : ((grid exponent place).1 : ℚ) / (grid exponent place).2 * 10 ^ place =
    2 ^ exponent / 4 := by
  have hquotient := scale_quotient 1 4 exponent
  rw [Nat.cast_one, Nat.cast_ofNat, one_div_mul_eq_div] at hquotient
  simp only [grid]
  split
  · rename_i hplace
    obtain ⟨k, rfl⟩ := Int.eq_ofNat_of_zero_le hplace
    have hten : (10 : ℚ) ^ k ≠ 0 := by positivity
    rw [← hquotient, Int.toNat_natCast, zpow_natCast, Nat.cast_mul, Nat.pow_eq, Nat.cast_pow,
      Nat.cast_ofNat, ← div_div, div_mul_cancel₀ _ hten]
  · obtain ⟨k, rfl⟩ : ∃ k : Nat, place = -k := ⟨place.natAbs, by omega⟩
    have hten : (10 : ℚ) ^ k ≠ 0 := by positivity
    rw [← hquotient, neg_neg, Int.toNat_natCast, zpow_neg, zpow_natCast, Nat.cast_mul, Nat.pow_eq,
      Nat.cast_pow, Nat.cast_ofNat, mul_div_right_comm, mul_inv_cancel_right₀ hten]

theorem grid_le_iff (a k : Nat) :
    (a : ℚ) * (2 ^ exponent / 4) ≤ k * 10 ^ place ↔
      a * (grid exponent place).1 ≤ k * (grid exponent place).2 := by
  have hdown : (0 : ℚ) < (grid exponent place).2 := by
    exact_mod_cast (grid_pos exponent place).2
  have hstep : (0 : ℚ) < 10 ^ place := by positivity
  rw [← grid_quotient exponent place, ← mul_assoc, mul_le_mul_iff_left₀ hstep, ← mul_div_assoc,
    div_le_iff₀ hdown]
  exact_mod_cast Iff.rfl

theorem le_grid_iff (a k : Nat) :
    (k : ℚ) * 10 ^ place ≤ a * (2 ^ exponent / 4) ↔
      k * (grid exponent place).2 ≤ a * (grid exponent place).1 := by
  have hdown : (0 : ℚ) < (grid exponent place).2 := by
    exact_mod_cast (grid_pos exponent place).2
  have hstep : (0 : ℚ) < 10 ^ place := by positivity
  rw [← grid_quotient exponent place, ← mul_assoc, mul_le_mul_iff_left₀ hstep, ← mul_div_assoc,
    le_div_iff₀ hdown]
  exact_mod_cast Iff.rfl

end Grid

theorem hits_iff (significand : Nat) (exponent place : Int) (k : Nat) :
    hits significand exponent place k = true ↔
      ReadsAs significand exponent (k * 10 ^ place) := by
  simp only [hits, ReadsAs]
  rw [grid_le_iff, le_grid_iff, lt_iff_lt_of_le_iff_le (le_grid_iff _ _ _ _),
    lt_iff_lt_of_le_iff_le (grid_le_iff _ _ _ _)]
  split <;> simp

theorem readsAs_of_onGrid? {significand k : Nat} {exponent place : Int}
    (h : onGrid? significand exponent place = some k) :
    ReadsAs significand exponent (k * 10 ^ place) := by
  rw [← hits_iff]
  rw [onGrid?_eq] at h
  simp only at h
  split at h
  · rename_i hlow hhigh
    obtain rfl := Option.some.inj h
    simp only [roundDiv]
    split
    · exact hhigh
    · exact hlow
  · exact Option.some.inj h ▸ ‹_›
  · exact Option.some.inj h ▸ ‹_›
  · cases h

/-- On a grid on which the number has 17 digits, one of the decimals next to it reads back. Above a
power of two it is the one that is not less. -/
theorem hits_of_fine {significand : Nat} {exponent place : Int} (hpos : 0 < significand)
    (hlt : significand < 2 ^ 53)
    (hfine : 10 ^ 16 * (grid exponent place).2 ≤ 4 * significand * (grid exponent place).1) :
    let k := 4 * significand * (grid exponent place).1 / (grid exponent place).2
    hits significand exponent place k = true ∨ hits significand exponent place (k + 1) = true := by
  obtain ⟨hup, hdown⟩ := grid_pos exponent place
  simp only [hits]
  generalize (grid exponent place).1 = up, (grid exponent place).2 = down at *
  have hdivide := Nat.div_add_mod (4 * significand * up) down
  have hrest := Nat.mod_lt (4 * significand * up) hdown
  rw [Nat.mul_comm] at hdivide
  generalize 4 * significand * up / down = k, 4 * significand * up % down = rest at *
  have hhigh : (4 * significand + 2) * up = 4 * significand * up + 2 * up := Nat.add_mul _ _ _
  rw [Nat.add_mul k, Nat.one_mul, hhigh, lowest, Nat.sub_mul]
  by_cases hpower : significand = 1 <<< 52 ∧ exponent ≠ -1074
  · have heven : significand % 2 = 0 := by rw [hpower.1]; rfl
    rw [if_pos hpower, if_pos heven, if_pos heven]
    obtain ⟨rfl, -⟩ := hpower
    simp only [Bool.and_eq_true, decide_eq_true_eq]
    omega
  · have hmost : significand * up ≤ (2 ^ 53 - 1) * up := Nat.mul_le_mul_right up (by omega)
    have hleast : up ≤ significand * up := Nat.le_mul_of_pos_left up hpos
    rw [Nat.mul_assoc] at *
    rw [if_neg hpower]
    by_cases heven : significand % 2 = 0
    · rw [if_pos heven, if_pos heven]
      simp only [Bool.and_eq_true, decide_eq_true_eq]
      omega
    · rw [if_neg heven, if_neg heven]
      simp only [Bool.and_eq_true, decide_eq_true_eq]
      omega

theorem isSome_onGrid? {significand : Nat} {exponent place : Int} (hpos : 0 < significand)
    (hlt : significand < 2 ^ 53)
    (hfine : 10 ^ 16 * (grid exponent place).2 ≤ 4 * significand * (grid exponent place).1) :
    (onGrid? significand exponent place).isSome = true := by
  have hhit := hits_of_fine hpos hlt hfine
  rw [onGrid?_eq]
  simp only at hhit ⊢
  split
  · rfl
  · rfl
  · rfl
  · rename_i hlow hhigh
    rw [hlow, hhigh] at hhit
    exact absurd hhit (by decide)

theorem onGrid?_of_search {significand : Nat} {exponent top : Int} {left count : Nat}
    (hlast : (onGrid? significand exponent (top - (count + left : Nat) + 1)).isSome = true) :
    onGrid? significand exponent (search significand exponent top (left + 1) count).2 =
      some (search significand exponent top (left + 1) count).1 := by
  induction left generalizing count with
  | zero =>
      obtain ⟨k, hk⟩ := Option.isSome_iff_exists.mp hlast
      rw [Nat.add_zero] at hk
      simp only [search, hk]
  | succ left ih =>
      rw [search]
      split
      · assumption
      · exact ih (by rwa [Nat.add_right_comm])

section Magnitude

variable {num den : Nat}

theorem reaches_iff (hden : den ≠ 0) (k : Int) :
    floorLog10.reaches num den k = true ↔ (10 : ℚ) ^ k ≤ num / den := by
  have hdenq : (0 : ℚ) < den := by exact_mod_cast Nat.pos_of_ne_zero hden
  rw [le_div_iff₀ hdenq]
  simp only [floorLog10.reaches]
  split
  · rename_i hk
    obtain ⟨k, rfl⟩ := Int.eq_ofNat_of_zero_le hk
    rw [decide_eq_true_eq, Int.toNat_natCast, zpow_natCast, Nat.mul_comm]
    exact_mod_cast Iff.rfl
  · obtain ⟨k, rfl⟩ : ∃ j : Nat, k = -j := ⟨k.natAbs, by omega⟩
    have hten : (0 : ℚ) < 10 ^ k := by positivity
    rw [decide_eq_true_eq, neg_neg, Int.toNat_natCast, zpow_neg, zpow_natCast,
      inv_mul_le_iff₀ hten, mul_comm ((10 : ℚ) ^ k)]
    exact_mod_cast Iff.rfl

theorem climb_le (hden : den ≠ 0) {k : Int} (h : (10 : ℚ) ^ k ≤ num / den) (steps : Nat) :
    (10 : ℚ) ^ floorLog10.climb num den steps k ≤ num / den := by
  induction steps generalizing k with
  | zero => exact h
  | succ steps ih =>
      rw [floorLog10.climb]
      split
      · exact ih ((reaches_iff hden _).mp ‹_›)
      · exact h

theorem ten_pow_bounds : ∀ l < 1100, 10 ^ (l * 30103 / 100000) ≤ 10 * 2 ^ l ∧
    2 ^ l ≤ 10 * 10 ^ (l * 30103 / 100000) := by
  decide +kernel

theorem ten_zpow_le {k : Int} (h : k.natAbs < 1100) :
    (10 : ℚ) ^ (Int.fdiv (k * 30103) 100000 - 1) ≤ 2 ^ k := by
  obtain ⟨hpositive, hnegative⟩ := ten_pow_bounds k.natAbs h
  rw [Int.fdiv_eq_ediv_of_nonneg _ (by decide)]
  rcases Int.natAbs_eq k with hk | hk
  · have hpositiveq : (10 : ℚ) ^ (k.natAbs * 30103 / 100000) ≤ 10 * 2 ^ k.natAbs := by
      exact_mod_cast hpositive
    have hexponent : k * 30103 / 100000 = (k.natAbs * 30103 / 100000 : Nat) := by omega
    rw [hexponent, zpow_sub_one₀ (by norm_num), hk, Int.natAbs_natCast, zpow_natCast, zpow_natCast,
      ← div_eq_mul_inv, div_le_iff₀ (by norm_num), mul_comm _ (10 : ℚ)]
    exact hpositiveq
  · have hnegativeq : (2 : ℚ) ^ k.natAbs ≤ 10 * 10 ^ (k.natAbs * 30103 / 100000) := by
      exact_mod_cast hnegative
    have hexponent : k * 30103 / 100000 - 1 ≤ -((k.natAbs * 30103 / 100000 + 1 : Nat) : Int) := by
      omega
    calc (10 : ℚ) ^ (k * 30103 / 100000 - 1)
        ≤ 10 ^ (-((k.natAbs * 30103 / 100000 + 1 : Nat) : Int)) :=
          zpow_le_zpow_right₀ (by norm_num) hexponent
      _ = (10 * 10 ^ (k.natAbs * 30103 / 100000))⁻¹ := by rw [zpow_neg, zpow_natCast, pow_succ']
      _ ≤ (2 ^ k.natAbs)⁻¹ := inv_anti₀ (by positivity) hnegativeq
      _ = 2 ^ k := by rw [← zpow_natCast, ← zpow_neg, ← hk]

theorem floorLog10_le (hnum : num ≠ 0) (hden : den ≠ 0) (hleast : (2 : ℚ) ^ (-1090 : Int) < num / den)
    (hmost : (num : ℚ) / den < 2 ^ (1090 : Int)) :
    (10 : ℚ) ^ floorLog10 num den ≤ num / den := by
  obtain ⟨hlower, hupper⟩ := estimate_bounds hnum hden
  have habove := (zpow_lt_zpow_iff_right₀ (one_lt_two (α := ℚ))).mp (hleast.trans hupper)
  have hbelow := (zpow_lt_zpow_iff_right₀ (one_lt_two (α := ℚ))).mp (hlower.trans_lt hmost)
  rw [show (num.log2 : Int) - den.log2 - 53 + 52 = (num.log2 : Int) - den.log2 - 1 by omega]
    at hlower
  exact climb_le hden ((ten_zpow_le (by omega)).trans hlower) 4

end Magnitude

/-- The digits of a number, at the place of their last one, read back as the number. -/
theorem readsAs_digits {significand : Nat} {exponent : Int} (h : Canonical significand exponent) :
    ReadsAs significand exponent
      ((digits significand exponent).1 * 10 ^ (digits significand exponent).2) := by
  have hpos := h.pos
  have hscaled := scale_den_pos significand one_pos exponent
  have hquotient := scale_quotient significand 1 exponent
  rw [Nat.cast_one, div_one] at hquotient
  have hlower : (2 : ℚ) ^ (-1090 : Int) < significand * 2 ^ exponent := by
    have hone : (1 : ℚ) ≤ significand := by exact_mod_cast hpos
    calc (2 : ℚ) ^ (-1090 : Int) < 2 ^ exponent :=
          zpow_lt_zpow_right₀ one_lt_two (lt_of_lt_of_le (by decide) h.least)
      _ ≤ significand * 2 ^ exponent := le_mul_of_one_le_left (by positivity) hone
  have hupper : significand * (2 : ℚ) ^ exponent < 2 ^ (1090 : Int) := by
    have hlt : (significand : ℚ) < 2 ^ (53 : Int) := by exact_mod_cast h.lt
    calc significand * (2 : ℚ) ^ exponent < 2 ^ (53 : Int) * 2 ^ exponent :=
          mul_lt_mul_of_pos_right hlt (by positivity)
      _ = 2 ^ (53 + exponent) := (zpow_add₀ two_ne_zero _ _).symm
      _ ≤ 2 ^ (1090 : Int) := two_zpow_mono (by have := h.most; omega)
  have hnum : (scale significand 1 exponent).1 ≠ 0 := by
    intro hzero
    rw [hzero, Nat.cast_zero, zero_div] at hquotient
    exact absurd (hquotient ▸ hlower) (not_lt.mpr (by positivity))
  rw [← hquotient] at hlower hupper
  have htop := floorLog10_le hnum hscaled.ne' hlower hupper
  rw [hquotient] at htop
  simp only [digits]
  generalize floorLog10 _ _ = top at *
  refine readsAs_of_onGrid? (onGrid?_of_search (isSome_onGrid? hpos h.lt ?_))
  rw [← le_grid_iff]
  calc ((10 ^ 16 : Nat) : ℚ) * 10 ^ (top - (1 + 16 : Nat) + 1)
      = 10 ^ top := by
        rw [Nat.cast_pow, Nat.cast_ofNat, ← zpow_natCast, ← zpow_add₀ (by norm_num)]
        congr 1
        omega
    _ ≤ significand * 2 ^ exponent := htop
    _ = (4 * significand : Nat) * (2 ^ exponent / 4) := by
        push_cast
        ring

end SpanStore.Shortest
