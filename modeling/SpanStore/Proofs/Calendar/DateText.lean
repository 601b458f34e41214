import Mathlib.Data.List.Basic
import SpanStore.Calendar.IndexName

namespace SpanStore.Calendar

theorem append_hyphen_inj {x y xs ys : List Char} (hx : '-' ∉ x) (hy : '-' ∉ y)
    (h : x ++ '-' :: xs = y ++ '-' :: ys) : x = y ∧ xs = ys := by
  rcases List.append_eq_append_iff.mp h with ⟨z, rfl, hz⟩ | ⟨z, rfl, hz⟩ <;> cases z with
  | nil => simpa [eq_comm] using hz
  | cons c z =>
      obtain ⟨rfl, -⟩ := List.cons.inj hz
      simp at hx hy

namespace Date

theorem hyphen_notMem_toDigits (n : Nat) : '-' ∉ Nat.toDigits 10 n := fun h =>
  absurd (Nat.isDigit_of_mem_toDigits (by decide) (by decide) h) (by decide)

theorem hyphen_notMem_twoDigits (n : Nat) : '-' ∉ twoDigits n := by
  unfold twoDigits
  split <;> simp [hyphen_notMem_toDigits]

theorem toDigits_injective {n m : Nat} (h : Nat.toDigits 10 n = Nat.toDigits 10 m) : n = m := by
  rw [← @Nat.ofDigitChars_ten_toDigits n, h, Nat.ofDigitChars_ten_toDigits]

theorem ofDigitChars_twoDigits (n : Nat) : Nat.ofDigitChars 10 (twoDigits n) 0 = n := by
  unfold twoDigits
  split
  · rw [Nat.ofDigitChars_cons]
    exact Nat.ofDigitChars_ten_toDigits
  · exact Nat.ofDigitChars_ten_toDigits

theorem twoDigits_injective {n m : Nat} (h : twoDigits n = twoDigits m) : n = m := by
  rw [← ofDigitChars_twoDigits n, h, ofDigitChars_twoDigits]

theorem text_injective {d e : Date} (h : d.text = e.text) : d = e := by
  simp only [text, List.append_assoc, List.cons_append] at h
  obtain ⟨hyear, hrest⟩ :=
    append_hyphen_inj (hyphen_notMem_toDigits _) (hyphen_notMem_toDigits _) h
  obtain ⟨hmonth, hday⟩ :=
    append_hyphen_inj (hyphen_notMem_twoDigits _) (hyphen_notMem_twoDigits _) hrest
  cases d
  cases e
  rw [mk.injEq]
  exact ⟨toDigits_injective hyear, twoDigits_injective hmonth, twoDigits_injective hday⟩

def padded (d : Date) : List Char :=
  [(d.year / 1000).digitChar, (d.year / 100 % 10).digitChar, (d.year / 10 % 10).digitChar,
    (d.year % 10).digitChar, '-', (d.month / 10).digitChar, (d.month % 10).digitChar, '-',
    (d.day / 10).digitChar, (d.day % 10).digitChar]

theorem length_padded (d : Date) : d.padded.length = 10 := rfl

theorem twoDigits_eq : ∀ n < 100, twoDigits n = [(n / 10).digitChar, (n % 10).digitChar] := by
  decide

theorem toDigits_of_four {n : Nat} (h : 1000 ≤ n) (h' : n ≤ 9999) :
    Nat.toDigits 10 n = [(n / 1000).digitChar, (n / 100 % 10).digitChar, (n / 10 % 10).digitChar,
      (n % 10).digitChar] := by
  have hbase : 1 < 10 := by decide
  rw [Nat.toDigits_eq_if hbase, if_neg (by omega), Nat.toDigits_eq_if hbase, if_neg (by omega),
    Nat.toDigits_eq_if hbase, if_neg (by omega), Nat.toDigits_of_lt_base (by omega),
    Nat.div_div_eq_div_mul n 10 10, Nat.div_div_eq_div_mul]
  rfl

theorem isValid_bounds {d : Date} (h : d.isValid = true) :
    d.year ≤ 9999 ∧ (1 ≤ d.month ∧ d.month ≤ 12) ∧ 1 ≤ d.day ∧ d.day ≤ 31 := by
  have hlengths : ∀ leap, ∀ i < 12, (monthLengths leap).getD i 0 ≤ 31 := by decide
  simp only [isValid, Bool.and_eq_true, decide_eq_true_eq] at h
  obtain ⟨⟨⟨⟨⟨-, hyear⟩, hmonth⟩, hmonth'⟩, hday⟩, hday'⟩ := h
  exact ⟨hyear, ⟨hmonth, hmonth'⟩, hday,
    Nat.le_trans hday' (hlengths (isLeap d.year) (d.month - 1) (by omega))⟩

theorem text_eq_padded {d : Date} (h : d.isValid = true) (hyear : 1000 ≤ d.year) :
    d.text = d.padded := by
  obtain ⟨hyear', hmonth, hday⟩ := isValid_bounds h
  rw [text, toDigits_of_four hyear hyear', twoDigits_eq d.month (by omega),
    twoDigits_eq d.day (by omega)]
  rfl

end Date

theorem digitValue?_digitChar : ∀ n < 10, Text.digitValue? n.digitChar = some n := by decide

theorem year?_padded {n : Nat} (h : n ≤ 9999) (rest : List Char) :
    year? ((n / 1000).digitChar :: (n / 100 % 10).digitChar :: (n / 10 % 10).digitChar ::
      (n % 10).digitChar :: '-' :: rest) = some (n, rest) := by
  rw [year?, digitValue?_digitChar _ (by omega), digitValue?_digitChar _ (by omega),
    digitValue?_digitChar _ (by omega), digitValue?_digitChar _ (by omega)]
  simp only [Option.some.injEq, Prod.mk.injEq, and_true]
  omega

theorem month?_padded {n : Nat} (h : 1 ≤ n) (h' : n ≤ 12) (rest : List Char) :
    month? ((n / 10).digitChar :: (n % 10).digitChar :: '-' :: rest) = some (n, rest) := by
  have hcases : n = 1 ∨ n = 2 ∨ n = 3 ∨ n = 4 ∨ n = 5 ∨ n = 6 ∨ n = 7 ∨ n = 8 ∨ n = 9 ∨
      n = 10 ∨ n = 11 ∨ n = 12 := by omega
  rcases hcases with rfl | rfl | rfl | rfl | rfl | rfl | rfl | rfl | rfl | rfl | rfl | rfl <;> rfl

theorem day?_padded : ∀ n ≤ 31, 1 ≤ n →
    day? [(n / 10).digitChar, (n % 10).digitChar] = some n := by decide

theorem Date.parse?_padded {d : Date} (h : d.isValid = true) : parse? d.padded = some d := by
  obtain ⟨hyear, ⟨hmonth, hmonth'⟩, hday, hday'⟩ := isValid_bounds h
  simp [parse?, padded, year?_padded hyear, month?_padded hmonth hmonth',
    day?_padded _ hday' hday, h]

end SpanStore.Calendar
