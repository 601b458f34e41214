import Mathlib.Algebra.Order.Ring.Nat
import SpanStore.Calendar.Date

namespace SpanStore.Calendar

section Months

variable {i k : Nat} {lengths : List Nat}

theorem inMonths_add (month : Nat) (hi : i < lengths.length) (hk : k < lengths[i]) :
    inMonths month lengths ((lengths.take i).sum + k) = (month + i, k + 1) := by
  induction lengths generalizing month i with
  | nil => simp at hi
  | cons length lengths ih =>
      cases i with
      | zero =>
          have hfits : k < length := by simpa using hk
          simp [inMonths, hfits]
      | succ i =>
          have hrest := ih (month + 1) (show i < lengths.length by simpa using hi)
            (by simpa using hk)
          have hpast : ¬ length + (lengths.take i).sum + k < length := by omega
          rw [List.take_succ_cons, List.sum_cons, inMonths, if_neg hpast,
            show length + (lengths.take i).sum + k - length = (lengths.take i).sum + k by omega,
            hrest, Nat.add_assoc, Nat.add_comm 1 i]

theorem exists_month (h : k < lengths.sum) :
    ∃ i, ∃ hi : i < lengths.length, ∃ j, j < lengths[i] ∧ k = (lengths.take i).sum + j := by
  induction lengths generalizing k with
  | nil => simp at h
  | cons length lengths ih =>
      by_cases hfits : k < length
      · exact ⟨0, by simp, k, hfits, by simp⟩
      · rw [List.sum_cons] at h
        obtain ⟨i, hi, j, hj, hk⟩ := ih (show k - length < lengths.sum by omega)
        refine ⟨i + 1, by simpa using hi, j, by simpa using hj, ?_⟩
        rw [List.take_succ_cons, List.sum_cons]
        omega

theorem sum_take_add_lt (hi : i < lengths.length) (hk : k < lengths[i]) :
    (lengths.take i).sum + k < lengths.sum := by
  have hsplit : lengths.sum = (lengths.take i).sum + (lengths.drop i).sum := by
    rw [← List.sum_append, List.take_append_drop]
  rw [List.drop_eq_getElem_cons hi, List.sum_cons] at hsplit
  omega

theorem sum_take_add_lt_take {i' : Nat} (h : i' < i) (hi' : i' < lengths.length)
    (hk : k < lengths[i']) : (lengths.take i').sum + k < (lengths.take i).sum := by
  have hin : i' < (lengths.take i).length := by
    rw [List.length_take]
    omega
  have hlt := sum_take_add_lt hin (by rwa [List.getElem_take])
  rwa [List.take_take, Nat.min_eq_left (Nat.le_of_lt h)] at hlt

end Months

section Years

variable {year k : Nat}

def yearLength (year : Nat) : Nat := (monthLengths (isLeap year)).sum

theorem isLeap_eq_true_iff (year : Nat) :
    isLeap year = true ↔ year % 4 = 0 ∧ (year % 100 ≠ 0 ∨ year % 400 = 0) := by
  simp [isLeap]

theorem yearLength_eq (year : Nat) :
    yearLength year =
      if year % 4 = 0 ∧ (year % 100 ≠ 0 ∨ year % 400 = 0) then 366 else 365 := by
  by_cases hleap : isLeap year = true
  · rw [if_pos ((isLeap_eq_true_iff year).mp hleap), yearLength, hleap]
    rfl
  · rw [if_neg (mt (isLeap_eq_true_iff year).mpr hleap), yearLength, Bool.eq_false_iff.mpr hleap]
    rfl

theorem daysBeforeYear_cycles {a b c d : Nat} (hb : b ≤ 3) (hc : c ≤ 24) (hd : d ≤ 3) :
    daysBeforeYear (a * 400 + b * 100 + c * 4 + d + 1) =
      a * 146097 + b * 36524 + c * 1461 + d * 365 := by
  unfold daysBeforeYear
  omega

theorem yearLength_cycles {a b c d : Nat} (hb : b ≤ 3) (hc : c ≤ 24) (hd : d ≤ 3) :
    yearLength (a * 400 + b * 100 + c * 4 + d + 1) =
      if d = 3 ∧ (c ≠ 24 ∨ b = 3) then 366 else 365 := by
  have hfour : (a * 400 + b * 100 + c * 4 + d + 1) % 4 = 0 ↔ d = 3 := by omega
  have hcentury (h : d = 3) : (a * 400 + b * 100 + c * 4 + d + 1) % 100 = 0 ↔ c = 24 := by omega
  have hall (h : d = 3) (h' : c = 24) : (a * 400 + b * 100 + c * 4 + d + 1) % 400 = 0 ↔ b = 3 := by
    omega
  rw [yearLength_eq]
  refine if_congr ?_ rfl rfl
  rw [hfour]
  refine and_congr_right fun h => ?_
  rw [ne_eq, hcentury h]
  by_cases h' : c = 24
  · rw [hall h h']
  · simp [h']

theorem exists_cycles {year : Nat} (h : 1 ≤ year) :
    ∃ a b c d, b ≤ 3 ∧ c ≤ 24 ∧ d ≤ 3 ∧ year = a * 400 + b * 100 + c * 4 + d + 1 :=
  ⟨(year - 1) / 400, (year - 1) % 400 / 100, (year - 1) % 100 / 4, (year - 1) % 4,
    by omega, by omega, by omega, by omega⟩

theorem daysBeforeYear_succ (h : 1 ≤ year) :
    daysBeforeYear (year + 1) = daysBeforeYear year + yearLength year := by
  obtain ⟨a, b, c, d, hb, hc, hd, rfl⟩ := exists_cycles h
  rw [daysBeforeYear_cycles hb hc hd, yearLength_cycles hb hc hd]
  unfold daysBeforeYear
  split <;> omega

theorem daysBeforeYear_mono {year' : Nat} (hyear : 1 ≤ year) (h : year ≤ year') :
    daysBeforeYear year ≤ daysBeforeYear year' := by
  induction h with
  | refl => exact Nat.le_refl _
  | step h ih =>
      rw [Nat.succ_eq_add_one, daysBeforeYear_succ (Nat.le_trans hyear h)]
      exact Nat.le_add_right_of_le ih

theorem year_unique {year' k' : Nat} (hyear : 1 ≤ year) (hyear' : 1 ≤ year')
    (hk : k < yearLength year) (hk' : k' < yearLength year')
    (h : daysBeforeYear year + k = daysBeforeYear year' + k') : year = year' ∧ k = k' := by
  have hnext := daysBeforeYear_succ hyear
  have hnext' := daysBeforeYear_succ hyear'
  rcases Nat.lt_trichotomy year year' with hlt | rfl | hlt
  · have hmono := daysBeforeYear_mono (Nat.le_add_left 1 year) (show year + 1 ≤ year' from hlt)
    omega
  · exact ⟨rfl, by omega⟩
  · have hmono := daysBeforeYear_mono (Nat.le_add_left 1 year') (show year' + 1 ≤ year from hlt)
    omega

end Years

namespace Date

def ofYear (year k : Nat) : Date :=
  let p := inMonths 1 (monthLengths (isLeap year)) k
  ⟨year, p.1, p.2⟩

/-- Of four blocks of one length the last is a day longer. -/
theorem fourth_block {r length : Nat} (hlength : 0 < length) (h : r ≤ 4 * length) :
    min 3 (r / length) * length ≤ r ∧ r - min 3 (r / length) * length ≤ length ∧
      (min 3 (r / length) ≠ 3 → r - min 3 (r / length) * length < length) := by
  have hr := Nat.div_add_mod' r length
  have hrest := Nat.mod_lt r hlength
  rcases Nat.lt_or_ge (r / length) 3 with hlt | hge
  · rw [Nat.min_eq_right (Nat.le_of_lt hlt)]
    omega
  · rw [Nat.min_eq_left hge]
    have hmul := Nat.mul_le_mul_right length hge
    omega

theorem ofOrdinal_cases (n : Nat) :
    ∃ year k, 1 ≤ year ∧ k < yearLength year ∧ n = daysBeforeYear year + k ∧
      ofOrdinal n = ofYear year k := by
  have hr : n % 146097 < 146097 := Nat.mod_lt n (Nat.succ_pos _)
  have hn := Nat.div_add_mod n 146097
  unfold ofOrdinal
  generalize n / 146097 = a at *
  generalize n % 146097 = r at *
  -- A cycle of 400 years is four centuries, of which the last has a leap day at its end.
  have hb : min 3 (r / 36524) ≤ 3 := Nat.min_le_left _ _
  obtain ⟨hb_le, hcentury, hcentury_lt⟩ :=
    fourth_block (Nat.succ_pos _) (show r ≤ 4 * 36524 by omega)
  simp only
  generalize min 3 (r / 36524) = b at *
  have hc : (r - b * 36524) / 1461 ≤ 24 := by omega
  have hfour : (r - b * 36524) % 1461 < 1461 := Nat.mod_lt _ (Nat.succ_pos _)
  have hdivide := Nat.div_add_mod (r - b * 36524) 1461
  generalize (r - b * 36524) / 1461 = c at *
  generalize (r - b * 36524) % 1461 = s at *
  -- Four years likewise.
  have hd : min 3 (s / 365) ≤ 3 := Nat.min_le_left _ _
  obtain ⟨hd_le, hyear, hyear_lt⟩ := fourth_block (Nat.succ_pos _) (show s ≤ 4 * 365 by omega)
  generalize min 3 (s / 365) = d at *
  refine ⟨_, _, Nat.le_add_left 1 _, ?_, ?_, rfl⟩
  · rw [yearLength_cycles hb hc hd]
    split
    · omega
    · rename_i hshort
      by_cases hlast : d = 3
      · have hends : c = 24 ∧ b ≠ 3 := by simpa [hlast] using hshort
        have hlt := hcentury_lt hends.2
        omega
      · exact hyear_lt hlast
  · rw [daysBeforeYear_cycles hb hc hd]
    omega

theorem toOrdinal_eq (d : Date) :
    d.toOrdinal = daysBeforeYear d.year +
      (((monthLengths (isLeap d.year)).take (d.month - 1)).sum + (d.day - 1)) := by
  rw [toOrdinal, List.sum_eq_foldl_nat, Nat.add_assoc]

theorem isValid_iff (d : Date) :
    d.isValid = true ↔ 1 ≤ d.year ∧ d.year ≤ 9999 ∧ 1 ≤ d.month ∧
      ∃ h : d.month - 1 < (monthLengths (isLeap d.year)).length,
        1 ≤ d.day ∧ d.day ≤ (monthLengths (isLeap d.year))[d.month - 1] := by
  have hlength : (monthLengths (isLeap d.year)).length = 12 := rfl
  simp only [isValid, Bool.and_eq_true, decide_eq_true_eq]
  constructor
  · rintro ⟨⟨⟨⟨⟨hyear, hyear'⟩, hmonth⟩, hmonth'⟩, hday⟩, hday'⟩
    have hin : d.month - 1 < (monthLengths (isLeap d.year)).length := by omega
    exact ⟨hyear, hyear', hmonth, hin, hday, hday'.trans_eq (List.getElem_eq_getD 0).symm⟩
  · rintro ⟨hyear, hyear', hmonth, hin, hday, hday'⟩
    exact ⟨⟨⟨⟨⟨hyear, hyear'⟩, hmonth⟩, by omega⟩, hday⟩,
      hday'.trans_eq (List.getElem_eq_getD 0)⟩

section Years

variable {year k : Nat}

theorem toOrdinal_ofYear (h : k < yearLength year) :
    (ofYear year k).toOrdinal = daysBeforeYear year + k := by
  obtain ⟨i, hi, j, hj, rfl⟩ := exists_month h
  rw [toOrdinal_eq, ofYear, inMonths_add 1 hi hj]
  simp

theorem isValid_ofYear (hyear : 1 ≤ year) (hyear' : year ≤ 9999) (h : k < yearLength year) :
    (ofYear year k).isValid = true := by
  obtain ⟨i, hi, j, hj, rfl⟩ := exists_month h
  rw [isValid_iff, ofYear, inMonths_add 1 hi hj]
  refine ⟨hyear, hyear', Nat.le_add_right 1 i, ?_, Nat.le_add_left 1 j, ?_⟩
  · simpa using hi
  · simpa using Nat.succ_le_of_lt hj

theorem exists_ofYear {d : Date} (h : d.isValid = true) :
    ∃ k, k < yearLength d.year ∧ d = ofYear d.year k := by
  obtain ⟨-, -, hmonth, hin, hday, hday'⟩ := (isValid_iff d).mp h
  refine ⟨_, sum_take_add_lt hin (show d.day - 1 < _ by omega), ?_⟩
  rw [ofYear, inMonths_add 1 hin (by omega), Nat.add_sub_cancel' hmonth, Nat.sub_add_cancel hday]

end Years

theorem toOrdinal_ofOrdinal (n : Nat) : (ofOrdinal n).toOrdinal = n := by
  obtain ⟨year, k, -, hk, rfl, hdate⟩ := ofOrdinal_cases n
  rw [hdate, toOrdinal_ofYear hk]

theorem ofOrdinal_injective {n m : Nat} (h : ofOrdinal n = ofOrdinal m) : n = m := by
  rw [← toOrdinal_ofOrdinal n, h, toOrdinal_ofOrdinal]

theorem ofOrdinal_year_le_iff {n year : Nat} (hyear : 1 ≤ year) :
    year ≤ (ofOrdinal n).year ↔ daysBeforeYear year ≤ n := by
  obtain ⟨year', k, hyear', hk, rfl, hdate⟩ := ofOrdinal_cases n
  rw [hdate]
  change year ≤ year' ↔ _
  constructor
  · intro h
    exact Nat.le_add_right_of_le (daysBeforeYear_mono hyear h)
  · intro h
    by_contra hlt
    have hmono := daysBeforeYear_mono (Nat.le_add_left 1 year') (show year' + 1 ≤ year by omega)
    rw [daysBeforeYear_succ hyear'] at hmono
    omega

theorem isValid_ofOrdinal {n : Nat} (h : n ≤ lastDay) : (ofOrdinal n).isValid = true := by
  have hyear : ¬ 10000 ≤ (ofOrdinal n).year := by
    rw [ofOrdinal_year_le_iff (Nat.succ_pos _)]
    exact Nat.not_le_of_lt (Nat.lt_succ_of_le h)
  obtain ⟨year, k, hpos, hk, rfl, hdate⟩ := ofOrdinal_cases n
  rw [hdate] at hyear ⊢
  exact isValid_ofYear hpos (Nat.le_of_lt_succ (Nat.lt_of_not_le hyear)) hk

theorem ofOrdinal_toOrdinal {d : Date} (h : d.isValid = true) : ofOrdinal d.toOrdinal = d := by
  obtain ⟨k, hk, hd⟩ := exists_ofYear h
  have hnumber : d.toOrdinal = daysBeforeYear d.year + k := by
    rw [hd, toOrdinal_ofYear hk]
    rfl
  obtain ⟨year, k', hyear, hk', hsum, hdate⟩ := ofOrdinal_cases d.toOrdinal
  obtain ⟨rfl, rfl⟩ := year_unique hyear ((isValid_iff d).mp h).1 hk' hk (hsum.symm.trans hnumber)
  rw [hdate, ← hd]

theorem toOrdinal_le_lastDay {d : Date} (h : d.isValid = true) : d.toOrdinal ≤ lastDay := by
  have hyear : ¬ 10000 ≤ (ofOrdinal d.toOrdinal).year := by
    rw [ofOrdinal_toOrdinal h]
    have := ((isValid_iff d).mp h).2.1
    omega
  rw [ofOrdinal_year_le_iff (Nat.succ_pos _)] at hyear
  exact Nat.le_of_lt_succ (Nat.lt_of_not_le hyear)

def Before (d e : Date) : Prop :=
  d.year < e.year ∨ d.year = e.year ∧ (d.month < e.month ∨ d.month = e.month ∧ d.day < e.day)

theorem ofYear_before {year k k' : Nat} (h : k < k') (hk' : k' < yearLength year) :
    (ofYear year k).Before (ofYear year k') := by
  obtain ⟨i, hi, j, hj, rfl⟩ := exists_month (Nat.lt_trans h hk')
  obtain ⟨i', hi', j', hj', rfl⟩ := exists_month hk'
  rw [ofYear, ofYear, inMonths_add 1 hi hj, inMonths_add 1 hi' hj']
  refine .inr ⟨rfl, ?_⟩
  rcases Nat.lt_trichotomy i i' with hlt | rfl | hlt
  · exact .inl (Nat.add_lt_add_left hlt 1)
  · exact .inr ⟨rfl, by simp only; omega⟩
  · have hmonths := sum_take_add_lt_take hlt hi' hj'
    omega

theorem ofOrdinal_before {n m : Nat} (h : n < m) : (ofOrdinal n).Before (ofOrdinal m) := by
  have hle : (ofOrdinal n).year ≤ (ofOrdinal m).year := by
    obtain ⟨year, k, hyear, hk, rfl, hdate⟩ := ofOrdinal_cases n
    rw [ofOrdinal_year_le_iff (by rw [hdate]; exact hyear), hdate]
    exact Nat.le_of_lt (Nat.lt_of_le_of_lt (Nat.le_add_right _ k) h)
  obtain ⟨year, k, hyear, hk, rfl, hdate⟩ := ofOrdinal_cases n
  obtain ⟨year', k', hyear', hk', rfl, hdate'⟩ := ofOrdinal_cases m
  rw [hdate, hdate'] at hle ⊢
  rcases Nat.lt_or_eq_of_le hle with hlt | heq
  · exact .inl hlt
  · obtain rfl : year = year' := heq
    exact ofYear_before (Nat.lt_of_add_lt_add_left h) hk'

end Date

end SpanStore.Calendar
