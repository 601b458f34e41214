import Mathlib.Data.List.DropRight
import SpanStore.Json.Printer
import SpanStore.Proofs.Json.Grammar
import SpanStore.Proofs.Number.Shortest

namespace SpanStore.Json

namespace Grammar

theorem digit_bounds {n : Nat} {c : Char} (hc : c ∈ Nat.toDigits 10 n) : '0' ≤ c ∧ c ≤ '9' := by
  have hdigit := Nat.isDigit_of_mem_toDigits (by decide) (by decide) hc
  simpa [Char.isDigit, Char.le_def] using hdigit

theorem digitsValue_toDigits (n : Nat) : digitsValue (Nat.toDigits 10 n) = n := by
  induction n using Nat.strongRecOn with
  | ind n ih =>
      rw [Nat.toDigits_eq_if (by decide)]
      split
      · rename_i hsmall
        simp [digitsValue, pushDigit, Nat.toNat_digitChar_of_lt_ten hsmall]
      · have hrest := ih (n / 10) (by omega)
        have hlast : n % 10 < 10 := Nat.mod_lt n (by decide)
        rw [digitsValue] at hrest ⊢
        rw [List.foldl_append, hrest]
        simp only [List.foldl_cons, List.foldl_nil, pushDigit,
          Nat.toNat_digitChar_of_lt_ten hlast]
        omega

theorem digitChar_ne_zero : ∀ n < 10, n ≠ 0 → n.digitChar ≠ '0' := by decide

theorem head_toDigits {n : Nat} (h : n ≠ 0) (rest : List Char) :
    Nat.toDigits 10 n ≠ '0' :: rest := by
  induction n using Nat.strongRecOn generalizing rest with
  | ind n ih =>
      -- The digits begin with those of the tenth of the number, which is not zero either.
      rw [Nat.toDigits_eq_if (by decide)]
      split
      · rename_i hsmall
        intro heq
        exact digitChar_ne_zero n hsmall h (List.cons.inj heq).1
      · have hfirst := ih (n / 10) (by omega) (by omega)
        intro heq
        cases hdigits : Nat.toDigits 10 (n / 10) with
        | nil => exact Nat.toDigits_ne_nil hdigits
        | cons c cs =>
            rw [hdigits] at heq hfirst
            exact hfirst cs (by rw [(List.cons.inj heq).1])

theorem whole_toDigits (n : Nat) : Whole (Nat.toDigits 10 n) := by
  refine ⟨⟨Nat.toDigits_ne_nil, fun c hc => digit_bounds hc⟩, ?_⟩
  intro rest hrest
  by_cases hn : n = 0
  · subst hn
    exact (List.cons.inj hrest).2.symm
  · exact absurd hrest (head_toDigits hn rest)

theorem digitsValue_append (ds es : List Char) :
    digitsValue (ds ++ es) = digitsValue ds * 10 ^ es.length + digitsValue es := by
  induction es using List.reverseRecOn with
  | nil => simp [digitsValue]
  | append_singleton es c ih =>
      have hlast (xs : List Char) : digitsValue (xs ++ [c]) = pushDigit (digitsValue xs) c := by
        rw [digitsValue, digitsValue, List.foldl_append, List.foldl_cons, List.foldl_nil]
      rw [← List.append_assoc, hlast, hlast, ih, pushDigit, pushDigit, List.length_append,
        List.length_singleton, Nat.pow_succ]
      ring

theorem digitsValue_zeros (n : Nat) : digitsValue (List.replicate n '0') = 0 := by
  induction n with
  | zero => rfl
  | succ n ih => exact ih

structure Leading (ds : List Char) : Prop where
  digits : Digits ds
  head : ∀ rest, ds ≠ '0' :: rest

namespace Leading

variable {ds : List Char} (h : Leading ds)

include h

theorem whole : Whole ds := ⟨h.digits, fun rest heq => absurd heq (h.head rest)⟩

theorem take {n : Nat} (hn : 0 < n) : Leading (ds.take n) := by
  obtain ⟨⟨hne, hdigits⟩, hhead⟩ := h
  obtain ⟨c, cs, rfl⟩ := List.exists_cons_of_ne_nil hne
  obtain ⟨n, rfl⟩ := Nat.exists_eq_succ_of_ne_zero hn.ne'
  rw [List.take_succ_cons]
  refine ⟨⟨List.cons_ne_nil _ _, fun d hd => hdigits d ?_⟩, fun rest heq => ?_⟩
  · exact List.mem_of_mem_take (i := n + 1) hd
  · exact hhead cs (by rw [(List.cons.inj heq).1])

theorem append {es : List Char} (hes : ∀ c ∈ es, '0' ≤ c ∧ c ≤ '9') : Leading (ds ++ es) := by
  obtain ⟨⟨hne, hdigits⟩, hhead⟩ := h
  obtain ⟨c, cs, rfl⟩ := List.exists_cons_of_ne_nil hne
  refine ⟨⟨List.cons_ne_nil _ _, List.forall_mem_append.mpr ⟨hdigits, hes⟩⟩, fun rest heq => ?_⟩
  exact hhead cs (by rw [(List.cons.inj heq).1])

end Leading

inductive DecimalText : ℚ → List Char → Prop where
  | decimal {whole fraction fractionText exponentText : List Char} {exponent : Int}
      (hwhole : Whole whole) (hfraction : FractionText fraction fractionText)
      (hexponent : ExponentText exponent exponentText)
      (hmarked : fractionText ++ exponentText ≠ []) :
      DecimalText (digitsValue (whole ++ fraction) * 10 ^ (exponent - fraction.length))
        (whole ++ fractionText ++ exponentText)

theorem isDigit_zeros (n : Nat) : ∀ c ∈ List.replicate n '0', '0' ≤ c ∧ c ≤ '9' := by
  intro c hc
  rw [List.eq_of_mem_replicate hc]
  decide

theorem ExponentText.signed (power : Int) {ds : List Char} (h : Digits ds)
    (hvalue : digitsValue ds = power.natAbs) :
    ExponentText power ('e' :: (if power < 0 then '-' else '+') :: ds) := by
  split
  · have htext := ExponentText.minus (.inl rfl) h
    rwa [hvalue, show -(power.natAbs : Int) = power by omega] at htext
  · have htext := ExponentText.plus (.inl rfl) h
    rwa [hvalue, show (power.natAbs : Int) = power by omega] at htext

section Layout

variable {ds : List Char} (h : Leading ds) (point : Int)

include h

theorem decimalText_small (hpoint : point ≤ 0) :
    DecimalText (digitsValue ds * 10 ^ (point - ds.length))
      ('0' :: '.' :: List.replicate (-point).toNat '0' ++ ds) := by
  have hfraction : Digits (List.replicate (-point).toNat '0' ++ ds) :=
    ⟨List.append_ne_nil_of_right_ne_nil _ h.digits.1,
      List.forall_mem_append.mpr ⟨isDigit_zeros _, h.digits.2⟩⟩
  have htext := DecimalText.decimal (whole_toDigits 0) (.some hfraction) .none (by simp)
  have hexponent : (0 : Int) - (List.replicate (-point).toNat '0' ++ ds).length =
      point - ds.length := by
    rw [List.length_append, List.length_replicate]
    omega
  have hvalue : digitsValue (Nat.toDigits 10 0 ++ (List.replicate (-point).toNat '0' ++ ds)) =
      digitsValue ds := by
    rw [digitsValue_append, digitsValue_append, digitsValue_zeros, digitsValue_toDigits]
    simp
  rw [hexponent, hvalue] at htext
  simpa using htext

theorem decimalText_long {n : Nat} (hn : ds.length ≤ n) :
    DecimalText (digitsValue ds * 10 ^ ((n : Int) - ds.length))
      (ds ++ List.replicate (n - ds.length) '0' ++ ['.', '0']) := by
  obtain ⟨k, rfl⟩ := Nat.exists_eq_add_of_le hn
  have hwhole := (h.append (isDigit_zeros k)).whole
  have htext := DecimalText.decimal hwhole (.some (whole_toDigits 0).1) .none (by simp)
  have hvalue : digitsValue (ds ++ List.replicate k '0' ++ Nat.toDigits 10 0) =
      digitsValue ds * 10 ^ k * 10 := by
    rw [digitsValue_append, digitsValue_append, digitsValue_zeros, digitsValue_toDigits,
      List.length_replicate]
    rfl
  have hexponent : (0 : Int) - (Nat.toDigits 10 0).length = -1 := rfl
  rw [hvalue, hexponent] at htext
  have hshift : ((digitsValue ds * 10 ^ k * 10 : Nat) : ℚ) * 10 ^ (-1 : Int) =
      digitsValue ds * 10 ^ (((ds.length + k : Nat) : Int) - ds.length) := by
    rw [show ((ds.length + k : Nat) : Int) - ds.length = k by omega, zpow_natCast, zpow_neg_one]
    push_cast
    ring
  rw [hshift] at htext
  rw [Nat.add_sub_cancel_left]
  simpa using htext

theorem decimalText_split {n : Nat} (hn : 0 < n) (hlength : n < ds.length) :
    DecimalText (digitsValue ds * 10 ^ ((n : Int) - ds.length))
      (ds.take n ++ '.' :: ds.drop n) := by
  have hfraction : Digits (ds.drop n) :=
    ⟨by simpa using hlength, fun c hc => h.digits.2 c (List.mem_of_mem_drop hc)⟩
  have htext := DecimalText.decimal (h.take hn).whole (.some hfraction) .none (by simp)
  have hexponent : (0 : Int) - (ds.drop n).length = n - ds.length := by
    rw [List.length_drop]
    omega
  rw [hexponent, List.take_append_drop] at htext
  simpa using htext

theorem decimalText_power {size : List Char} (hsize : Digits size)
    (hvalue : digitsValue size = (point - 1).natAbs) :
    DecimalText (digitsValue ds * 10 ^ (point - ds.length))
      (ds.take 1 ++ (if ds.length ≤ 1 then [] else '.' :: ds.drop 1) ++
        'e' :: (if point - 1 < 0 then '-' else '+') :: size) := by
  have hexponent := ExponentText.signed (point - 1) hsize hvalue
  have hlength : ds.length ≠ 0 := mt List.length_eq_zero_iff.mp h.digits.1
  have hshift : point - 1 - (ds.drop 1).length = point - ds.length := by
    rw [List.length_drop]
    omega
  have hfraction : FractionText (ds.drop 1)
      (if ds.length ≤ 1 then [] else '.' :: ds.drop 1) := by
    split
    · rename_i hone
      rw [List.drop_of_length_le hone]
      exact .none
    · rename_i hmany
      exact .some ⟨mt List.drop_eq_nil_iff.mp hmany,
        fun c hc => h.digits.2 c (List.mem_of_mem_drop hc)⟩
  have htext := DecimalText.decimal (h.take one_pos).whole hfraction hexponent (by simp)
  rwa [hshift, List.take_append_drop] at htext

theorem decimalText_layout :
    DecimalText (digitsValue ds * 10 ^ (point - ds.length)) (Shortest.layout ds point) := by
  rw [Shortest.layout]
  split
  · split
    · exact decimalText_small h point ‹_›
    · obtain ⟨n, rfl⟩ := Int.eq_ofNat_of_zero_le (show 0 ≤ point by omega)
      rw [Int.toNat_natCast]
      by_cases hlength : n < ds.length
      · have hrest : ds.drop n ≠ [] := by simpa using hlength
        have hzeros : n - ds.length = 0 := by omega
        simpa [hrest, hzeros] using decimalText_split h (by omega) hlength
      · have hrest : ds.drop n = [] := List.drop_of_length_le (by omega)
        rw [hrest, List.take_of_length_le (by omega)]
        simpa using decimalText_long h (n := n) (by omega)
  · have hsize := whole_toDigits (point - 1).natAbs
    have hvalue := digitsValue_toDigits (point - 1).natAbs
    refine decimalText_power h point ?_ ?_
    · split
      · exact ⟨List.cons_ne_nil _ _, List.forall_mem_cons.mpr ⟨by decide, hsize.1.2⟩⟩
      · exact hsize.1
    · split
      · exact hvalue
      · exact hvalue

end Layout

theorem leading_toDigits {k : Nat} (hk : k ≠ 0) : Leading (Nat.toDigits 10 k) :=
  ⟨(whole_toDigits k).1, head_toDigits hk⟩

theorem Leading.exists_zeros {ds : List Char} (h : Leading ds) :
    ∃ n, ds.length = (ds.rdropWhile (· == '0')).length + n ∧
      digitsValue ds = digitsValue (ds.rdropWhile (· == '0')) * 10 ^ n ∧
      Leading (ds.rdropWhile (· == '0')) := by
  have hwhole := List.rdropWhile_append_rtakeWhile (p := (· == '0')) (l := ds)
  have hzeros : ds.rtakeWhile (· == '0') =
      List.replicate (ds.rtakeWhile (· == '0')).length '0' :=
    List.eq_replicate_iff.mpr ⟨rfl, fun c hc => by simpa using List.mem_rtakeWhile_imp hc⟩
  generalize ds.rdropWhile (· == '0') = front at *
  generalize (ds.rtakeWhile (· == '0')).length = n at *
  rw [hzeros] at hwhole
  subst hwhole
  obtain ⟨⟨hne, hdigits⟩, hhead⟩ := h
  refine ⟨n, by simp, ?_, ⟨?_, fun c hc => hdigits c (List.mem_append_left _ hc)⟩, ?_⟩
  · rw [digitsValue_append, digitsValue_zeros, List.length_replicate, Nat.add_zero]
  · rintro rfl
    obtain ⟨m, rfl⟩ := Nat.exists_eq_succ_of_ne_zero
      (show n ≠ 0 by rintro rfl; exact hne rfl)
    exact hhead _ rfl
  · intro rest hrest
    exact hhead (rest ++ List.replicate n '0') (by rw [hrest, List.cons_append])

theorem decimalText_digits {k : Nat} (hk : k ≠ 0) (place : Int) :
    DecimalText (k * 10 ^ place)
      (Shortest.layout ((Nat.toDigits 10 k).rdropWhile (· == '0'))
        (place + (Nat.toDigits 10 k).length)) := by
  obtain ⟨n, hlength, hvalue, hleading⟩ := (leading_toDigits hk).exists_zeros
  rw [digitsValue_toDigits] at hvalue
  have htext := decimalText_layout hleading (place + (Nat.toDigits 10 k).length)
  have hten : (10 : ℚ) ≠ 0 := by norm_num
  have hshift : place + (Nat.toDigits 10 k).length -
      ((Nat.toDigits 10 k).rdropWhile (· == '0')).length = n + place := by
    omega
  rw [hshift, zpow_add₀ hten, ← mul_assoc, zpow_natCast] at htext
  have hk : (k : ℚ) = digitsValue ((Nat.toDigits 10 k).rdropWhile (· == '0')) * 10 ^ n := by
    exact_mod_cast hvalue
  rwa [hk]

theorem DecimalText.floatText {x : ℚ} {t : List Char} (h : DecimalText x t) {negative : Bool}
    {f : Float} (hread : ∀ (digits : Nat) (place : Int), (digits : ℚ) * 10 ^ place = x →
      Binary64.ofDecimal? negative digits place = some f) :
    FloatText f (signText negative ++ t) := by
  cases h with
  | decimal hwhole hfraction hexponent hmarked =>
      simpa using FloatText.nearest hwhole hfraction hexponent hmarked (hread _ _ rfl)

theorem floatText_finiteText {f : Float} {negative : Bool} {significand : Nat} {exponent : Int}
    (hparts : Binary64.parts f = .finite negative significand exponent) :
    FloatText f (Shortest.finiteText negative significand exponent) := by
  have hsigned (t : List Char) : (if negative then '-' :: t else t) = signText negative ++ t := by
    cases negative <;> rfl
  simp only [Shortest.finiteText, hsigned]
  split
  · rename_i hzero
    have htext := DecimalText.decimal (whole_toDigits 0) (.some (whole_toDigits 0).1) .none (by simp)
    refine htext.floatText (t := ['0', '.', '0']) fun digits place hvalue => ?_
    have hten : (10 : ℚ) ^ place ≠ 0 := by positivity
    have hdigits : digits = 0 := by
      rw [show digitsValue (Nat.toDigits 10 0 ++ Nat.toDigits 10 0) = 0 from rfl, Nat.cast_zero,
        zero_mul] at hvalue
      exact_mod_cast (mul_eq_zero.mp hvalue).resolve_right hten
    rw [hdigits]
    exact Binary64.ofDecimal?_zero hparts hzero place
  · rename_i hpos
    have hcanonical := ((Binary64.bits_of_parts hparts).2).resolve_left fun hzero => hpos hzero.1
    have hreads := Shortest.readsAs_digits hcanonical
    have hk : (Shortest.digits significand exponent).1 ≠ 0 := by
      intro hzero
      have hx := hreads.pos hcanonical
      rw [hzero, Nat.cast_zero, zero_mul] at hx
      exact lt_irrefl 0 hx
    exact (decimalText_digits hk _).floatText fun digits place hvalue =>
      Binary64.ofDecimal?_of_readsAs hparts hpos (hvalue ▸ hreads)

end Grammar

open Grammar

namespace Printer

theorem intText_int (n : Int) : IntText n (int n) := by
  have hwhole := whole_toDigits n.natAbs
  have hvalue := digitsValue_toDigits n.natAbs
  rw [int]
  split
  · have htext := IntText.negative hwhole
    have hn : -(n.natAbs : Int) = n := by omega
    rwa [hvalue, hn] at htext
  · have htext := IntText.positive hwhole
    have hn : (n.natAbs : Int) = n := by omega
    rwa [hvalue, hn] at htext

theorem floatText_text {f : Float} (h : Binary64.isFinite f = true) :
    FloatText f (Shortest.text words f).toList := by
  obtain ⟨negative, significand, exponent, hparts⟩ := Binary64.isFinite_iff.mp h
  rw [Shortest.text, hparts, String.toList_ofList]
  exact floatText_finiteText hparts

end Printer

end SpanStore.Json
