import Mathlib.Algebra.Group.Nat.Defs
import SpanStore.Json.Reader
import SpanStore.Proofs.Json.Tree
import SpanStore.Proofs.Text.Utf8

namespace SpanStore.Json

open Grammar Text.Utf8

def Delimiter (b : UInt8) : Prop :=
  Text.isBlankByte b = true ∨ b = 0x2C ∨ b = 0x5D ∨ b = 0x7D

theorem Delimiter.not_continues {b : UInt8} (h : Delimiter b) :
    NumberState.isDigit b = false ∧ b ≠ 0x2E ∧ b ≠ 0x65 ∧ b ≠ 0x45 := by
  rcases h with hblank | rfl | rfl | rfl
  · simp only [Text.isBlankByte, Bool.or_eq_true, beq_iff_eq, Bool.and_eq_true,
      decide_eq_true_eq] at hblank
    have hlow : b.toNat ≤ 0x20 := by
      rcases hblank with rfl | ⟨-, hhigh⟩
      · exact Nat.le_refl _
      · exact Nat.le_trans (UInt8.le_iff_toNat_le.mp hhigh) (by decide)
    have habove {x : UInt8} (hx : 0x20 < x.toNat) : b ≠ x := by
      rintro rfl
      omega
    refine ⟨?_, habove (by decide), habove (by decide), habove (by decide)⟩
    simp only [NumberState.isDigit, Bool.and_eq_false_iff, decide_eq_false_iff_not,
      UInt8.le_iff_toNat_le, UInt8.toNat_ofNat]
    omega
  · decide
  · decide
  · decide

theorem Reader.foldl_feed_number {p : Progress} {bs : List UInt8} {n n' : NumberState}
    (h : bs.foldlM NumberState.next? n = some n') :
    bs.foldl Reader.feed ⟨p, .number n, none⟩ = ⟨p, .number n', none⟩ := by
  induction bs generalizing n with
  | nil =>
      obtain rfl : n = n' := by simpa using h
      rfl
  | cons b bs ih =>
      simp only [List.foldlM_cons, Option.bind_eq_bind, Option.bind_eq_some_iff] at h
      obtain ⟨m, hm, hrest⟩ := h
      have hfeed : Reader.feed ⟨p, .number n, none⟩ b = ⟨p, .number m, none⟩ := by
        simp [Reader.feed, hm]
      rw [List.foldl_cons, hfeed, ih hrest]

namespace NumberState

theorem of_digit {c : Char} (h : '0' ≤ c ∧ c ≤ '9') :
    String.utf8EncodeChar c = [UInt8.ofNat c.toNat] ∧ isDigit (UInt8.ofNat c.toNat) = true ∧
      digit (UInt8.ofNat c.toNat) = c.toNat - 0x30 := by
  simp only [Char.le_def, UInt32.le_iff_toNat_le] at h
  change 0x30 ≤ c.toNat ∧ c.toNat ≤ 0x39 at h
  have hn : c.toNat < 256 := by omega
  refine ⟨encodeChar_ascii (by omega), ?_, ?_⟩
  · simp only [isDigit, Bool.and_eq_true, decide_eq_true_eq, ofNat_le_iff hn, le_ofNat_iff hn,
      UInt8.toNat_ofNat]
    exact h
  · rw [digit, toNat_ofNat_of_lt hn]

theorem encode_digit {c : Char} (h : '0' ≤ c ∧ c ≤ '9') (cs : List Char) :
    encode (c :: cs) = UInt8.ofNat c.toNat :: encode cs := by
  rw [encode_cons, (of_digit h).1]
  rfl

theorem digit_cases {ds : List Char} (h : Digits ds) :
    ∃ c cs, ds = c :: cs ∧ ('0' ≤ c ∧ c ≤ '9') ∧ ∀ d ∈ cs, '0' ≤ d ∧ d ≤ '9' := by
  obtain ⟨hne, hall⟩ := h
  cases ds with
  | nil => exact absurd rfl hne
  | cons c cs =>
      exact ⟨c, cs, rfl, hall c List.mem_cons_self, fun d hd => hall d (List.mem_cons_of_mem c hd)⟩

section Digits

variable {n : NumberState} {ds : List Char}

theorem foldlM_next?_whole (hpart : n.part = .whole) (hds : ∀ c ∈ ds, '0' ≤ c ∧ c ≤ '9') :
    (encode ds).foldlM next? n = some { n with digits := ds.foldl pushDigit n.digits } := by
  induction ds generalizing n with
  | nil => rfl
  | cons c cs ih =>
      obtain ⟨hc, hcs⟩ := List.forall_mem_cons.mp hds
      have hnext : n.next? (UInt8.ofNat c.toNat) =
          some { n with digits := pushDigit n.digits c } := by
        simp [next?, hpart, of_digit hc, pushDigit]
      rw [encode_digit hc, List.foldlM_cons, hnext]
      exact ih hpart hcs

theorem foldlM_next?_fraction (hpart : n.part = .fraction)
    (hds : ∀ c ∈ ds, '0' ≤ c ∧ c ≤ '9') :
    (encode ds).foldlM next? n =
      some { n with digits := ds.foldl pushDigit n.digits, places := n.places + ds.length } := by
  induction ds generalizing n with
  | nil => rfl
  | cons c cs ih =>
      obtain ⟨hc, hcs⟩ := List.forall_mem_cons.mp hds
      have hnext : n.next? (UInt8.ofNat c.toNat) =
          some { n with digits := pushDigit n.digits c, places := n.places + 1 } := by
        simp [next?, hpart, of_digit hc, pushDigit]
      rw [encode_digit hc, List.foldlM_cons, hnext, List.length_cons, Nat.add_comm cs.length,
        ← Nat.add_assoc]
      exact ih hpart hcs

theorem foldlM_next?_power (hpart : n.part = .power) (hds : ∀ c ∈ ds, '0' ≤ c ∧ c ≤ '9') :
    (encode ds).foldlM next? n = some { n with power := ds.foldl pushDigit n.power } := by
  induction ds generalizing n with
  | nil => rfl
  | cons c cs ih =>
      obtain ⟨hc, hcs⟩ := List.forall_mem_cons.mp hds
      have hnext : n.next? (UInt8.ofNat c.toNat) =
          some { n with power := pushDigit n.power c } := by
        simp [next?, hpart, of_digit hc, pushDigit]
      rw [encode_digit hc, List.foldlM_cons, hnext]
      exact ih hpart hcs

end Digits

def ofWhole (negative : Bool) (ds : List Char) : NumberState :=
  ⟨if ds.head? = some '0' then .zero else .whole, negative, digitsValue ds, 0, false, 0⟩

theorem foldlM_next?_ofWhole (negative : Bool) {c : Char} {cs : List Char} (h : Whole (c :: cs)) :
    (encode cs).foldlM next? { ofDigit (UInt8.ofNat c.toNat) with negative := negative } =
      some (ofWhole negative (c :: cs)) := by
  obtain ⟨⟨-, hdigits⟩, hzero⟩ := h
  obtain ⟨hc, hcs⟩ := List.forall_mem_cons.mp hdigits
  by_cases hfirst : c = '0'
  · obtain rfl := hzero cs (by rw [hfirst])
    subst hfirst
    rfl
  · have hbyte : UInt8.ofNat c.toNat ≠ 0x30 := by
      have hbound : c.toNat < 256 := by
        have hhigh : c.toNat ≤ 0x39 := UInt32.le_iff_toNat_le.mp hc.2
        omega
      rw [ne_eq, ofNat_eq_iff hbound]
      exact fun h => hfirst (Char.toNat_inj.mp h)
    rw [foldlM_next?_whole (by simp [ofDigit, hbyte]) hcs]
    simp [ofDigit, ofWhole, hbyte, hfirst, digitsValue, pushDigit, of_digit hc]

def withFraction (n : NumberState) (ds : List Char) : NumberState :=
  { n with
    part := if ds = [] then n.part else .fraction
    digits := ds.foldl pushDigit n.digits
    places := ds.length }

theorem foldlM_next?_withFraction {n : NumberState} {ds t : List Char} (h : FractionText ds t)
    (hpart : n.part = .zero ∨ n.part = .whole) (hplaces : n.places = 0) :
    (encode t).foldlM next? n = some (n.withFraction ds) := by
  cases h with
  | none => simp [withFraction, ← hplaces]
  | some hds =>
      obtain ⟨c, cs, rfl, hc, hcs⟩ := digit_cases hds
      have hpoint : n.next? 0x2E = some { n with part := .point } := by
        rcases hpart with hpart | hpart
        · simp [next?, hpart]
        · simp [next?, hpart, show isDigit 0x2E = false from rfl]
      have hfirst : next? { n with part := .point } (UInt8.ofNat c.toNat) =
          some { n with part := .fraction, digits := pushDigit n.digits c, places := 1 } := by
        simp [next?, of_digit hc, pushDigit]
      have hencode : encode ('.' :: c :: cs) = 0x2E :: UInt8.ofNat c.toNat :: encode cs := by
        rw [encode_cons, encode_digit hc]
        rfl
      rw [hencode, List.foldlM_cons, hpoint]
      change List.foldlM _ _ _ = _
      rw [List.foldlM_cons, hfirst]
      change List.foldlM _ _ _ = _
      rw [foldlM_next?_fraction rfl hcs]
      simp [withFraction, Nat.add_comm]

def tenPower (n : NumberState) : Int := if n.powerNegative then -(n.power : Int) else n.power

/-- A state that differs at most in its power of ten. -/
structure Raised (n n' : NumberState) (exponent : Int) : Prop where
  part : n'.part = .power ∨ n'.part = n.part
  negative : n'.negative = n.negative
  digits : n'.digits = n.digits
  places : n'.places = n.places
  tenPower : n'.tenPower = exponent

theorem next?_mark {n : NumberState} {m : Char} (hm : m = 'e' ∨ m = 'E')
    (hpart : n.part = .zero ∨ n.part = .whole ∨ n.part = .fraction) (cs : List Char) :
    (encode (m :: cs)).foldlM next? n = (encode cs).foldlM next? { n with part := .mark } := by
  have hnext : ∀ b : UInt8, b = 0x65 ∨ b = 0x45 → n.next? b = some { n with part := .mark } := by
    intro b hb
    have hdigit : isDigit b = false ∧ b ≠ 0x2E := by
      rcases hb with rfl | rfl <;> decide
    rcases hpart with hpart | hpart | hpart <;> simp [next?, hpart, hdigit, hb]
  rcases hm with rfl | rfl
  · have hencode : encode ('e' :: cs) = 0x65 :: encode cs := rfl
    rw [hencode, List.foldlM_cons, hnext _ (.inl rfl)]
    rfl
  · have hencode : encode ('E' :: cs) = 0x45 :: encode cs := rfl
    rw [hencode, List.foldlM_cons, hnext _ (.inr rfl)]
    rfl

theorem foldlM_next?_powerDigits {n : NumberState} {ds : List Char} (h : Digits ds)
    (hpart : n.part = .mark ∨ n.part = .sign) :
    (encode ds).foldlM next? n = some { n with part := .power, power := digitsValue ds } := by
  obtain ⟨c, cs, rfl, hc, hcs⟩ := digit_cases h
  have hfirst : n.next? (UInt8.ofNat c.toNat) =
      some { n with part := .power, power := pushDigit 0 c } := by
    rcases hpart with hpart | hpart <;> simp [next?, hpart, of_digit hc, pushDigit]
  rw [encode_digit hc, List.foldlM_cons, hfirst]
  exact foldlM_next?_power rfl hcs

theorem foldlM_next?_exponent {n : NumberState} {exponent : Int} {t : List Char}
    (h : ExponentText exponent t)
    (hpart : n.part = .zero ∨ n.part = .whole ∨ n.part = .fraction)
    (hpower : n.powerNegative = false ∧ n.power = 0) :
    ∃ n', (encode t).foldlM next? n = some n' ∧ n.Raised n' exponent ∧
      (t ≠ [] → n'.part = .power) := by
  cases h with
  | none => exact ⟨n, rfl, ⟨.inr rfl, rfl, rfl, rfl, by simp [tenPower, hpower]⟩, absurd rfl⟩
  | @plain m ds hm hds =>
      refine ⟨{ n with part := .power, power := digitsValue ds }, ?_,
        ⟨.inl rfl, rfl, rfl, rfl, ?_⟩, fun _ => rfl⟩
      · rw [next?_mark hm hpart, foldlM_next?_powerDigits hds (.inl rfl)]
      · simp [tenPower, hpower]
  | @plus m ds hm hds =>
      have hencode : encode ('+' :: ds) = 0x2B :: encode ds := rfl
      have hsign : next? { n with part := .mark } 0x2B = some { n with part := .sign } := rfl
      refine ⟨{ n with part := .power, power := digitsValue ds }, ?_,
        ⟨.inl rfl, rfl, rfl, rfl, ?_⟩, fun _ => rfl⟩
      · rw [next?_mark hm hpart, hencode, List.foldlM_cons, hsign]
        exact foldlM_next?_powerDigits hds (.inr rfl)
      · simp [tenPower, hpower]
  | @minus m ds hm hds =>
      have hencode : encode ('-' :: ds) = 0x2D :: encode ds := rfl
      have hsign : next? { n with part := .mark } 0x2D =
          some { n with part := .sign, powerNegative := true } := rfl
      refine ⟨{ n with part := .power, powerNegative := true, power := digitsValue ds }, ?_,
        ⟨.inl rfl, rfl, rfl, rfl, ?_⟩, fun _ => rfl⟩
      · rw [next?_mark hm hpart, hencode, List.foldlM_cons, hsign]
        exact foldlM_next?_powerDigits hds (.inr rfl)
      · simp [tenPower]

def Complete (n : NumberState) : Prop :=
  n.part = .zero ∨ n.part = .whole ∨ n.part = .fraction ∨ n.part = .power

theorem Complete.next?_delimiter {n : NumberState} {b : UInt8} (h : n.Complete)
    (hb : Delimiter b) : n.next? b = none := by
  obtain ⟨hdigit, hpoint, hlower, hupper⟩ := hb.not_continues
  rcases h with hpart | hpart | hpart | hpart <;>
  simp [next?, hpart, hdigit, hpoint, hlower, hupper]

end NumberState

/-- The reader is within a number after the text, and any delimiter ends it. Its value is as
given, if it has one. -/
def EndsIn (t : List Char) (v : Option Value) : Prop :=
  ∃ n : NumberState,
    (∀ p, (encode t).foldl Reader.feed ⟨p, .none, none⟩ = ⟨p, .number n, none⟩) ∧
    n.value? = v ∧ ∀ b, Delimiter b → n.next? b = none

open NumberState

theorem Opening.ofByte_digit {b : UInt8} (h : isDigit b = true) :
    Opening.ofByte b = .partly (.number (ofDigit b)) := by
  have hbounds := h
  simp only [isDigit, Bool.and_eq_true, decide_eq_true_eq, UInt8.le_iff_toNat_le,
    UInt8.toNat_ofNat] at hbounds
  have hne {x : UInt8} (hx : x.toNat < 0x30 ∨ 0x39 < x.toNat) : b ≠ x := by
    rintro rfl
    omega
  have hblank : ¬ Text.isBlankByte b = true := by
    simp only [Text.isBlankByte, Bool.or_eq_true, beq_iff_eq, Bool.and_eq_true,
      decide_eq_true_eq, UInt8.le_iff_toNat_le, UInt8.toNat_ofNat]
    rintro (rfl | hrange)
    · exact absurd h (by decide)
    · omega
  rw [Opening.ofByte, if_neg hblank, if_neg (hne (by decide)), if_neg (hne (by decide)),
    if_neg (hne (by decide)), if_neg (hne (by decide)), if_neg (hne (by decide)),
    if_neg (hne (by decide)), if_neg (hne (by decide)), if_neg (hne (by decide)), if_pos h]

theorem Reader.foldl_feed_whole {p : Progress} {ds : List Char} (h : Whole ds) (negative : Bool) :
    (encode (signText negative ++ ds)).foldl Reader.feed ⟨p, .none, none⟩ =
      ⟨p, .number (ofWhole negative ds), none⟩ := by
  obtain ⟨c, cs, rfl, hc, -⟩ := digit_cases h.1
  have hread := foldlM_next?_ofWhole negative h
  cases negative with
  | false =>
      have hopen : Reader.feed ⟨p, .none, none⟩ (UInt8.ofNat c.toNat) =
          ⟨p, .number (ofDigit (UInt8.ofNat c.toNat)), none⟩ := by
        simp [Reader.feed, Reader.begin, Opening.ofByte_digit (of_digit hc).2.1]
      rw [signText, if_neg Bool.false_ne_true, List.nil_append, encode_digit hc, List.foldl_cons,
        hopen]
      exact Reader.foldl_feed_number hread
  | true =>
      have hencode : encode (signText true ++ c :: cs) =
          0x2D :: UInt8.ofNat c.toNat :: encode cs := by
        rw [← encode_digit hc]
        rfl
      have hopen : Reader.feed ⟨p, .none, none⟩ 0x2D = ⟨p, .number ofMinus, none⟩ := rfl
      have hfirst : Reader.feed ⟨p, .number ofMinus, none⟩ (UInt8.ofNat c.toNat) =
          ⟨p, .number { ofDigit (UInt8.ofNat c.toNat) with negative := true }, none⟩ := by
        simp [Reader.feed, next?, ofMinus, of_digit hc]
      rw [hencode, List.foldl_cons, hopen, List.foldl_cons, hfirst]
      exact Reader.foldl_feed_number hread

theorem ofWhole_part (negative : Bool) (ds : List Char) :
    (ofWhole negative ds).part = .zero ∨ (ofWhole negative ds).part = .whole := by
  simp only [ofWhole]
  split
  · exact .inl rfl
  · exact .inr rfl

theorem ofWhole_value? (negative : Bool) (ds : List Char) :
    (ofWhole negative ds).value? =
      if digitsValue ds < 2 ^ 63 then
        some (.int (if negative then -(digitsValue ds : Int) else digitsValue ds))
      else none := by
  rcases ofWhole_part negative ds with hpart | hpart <;>
  · rw [value?, hpart]
    rfl

theorem EndsIn.whole (negative : Bool) {ds : List Char} (h : Whole ds) :
    EndsIn (signText negative ++ ds)
      (if digitsValue ds < 2 ^ 63 then
        some (.int (if negative then -(digitsValue ds : Int) else digitsValue ds))
      else none) := by
  have hcomplete : (ofWhole negative ds).Complete := by
    rcases ofWhole_part negative ds with hpart | hpart
    · exact .inl hpart
    · exact .inr (.inl hpart)
  exact ⟨ofWhole negative ds, fun p => Reader.foldl_feed_whole h negative,
    ofWhole_value? negative ds, fun b hb => hcomplete.next?_delimiter hb⟩

theorem value?_float {n : NumberState} (h : n.part = .fraction ∨ n.part = .power) :
    n.value? = (Binary64.ofDecimal? n.negative n.digits (n.tenPower - n.places)).map .float := by
  rcases h with hpart | hpart <;> rw [value?, hpart] <;> rfl

theorem EndsIn.decimal (negative : Bool) {whole fraction fractionText exponentText : List Char}
    {exponent : Int} (hwhole : Whole whole) (hfraction : FractionText fraction fractionText)
    (hexponent : ExponentText exponent exponentText) (hmarked : fractionText ++ exponentText ≠ []) :
    EndsIn (signText negative ++ whole ++ fractionText ++ exponentText)
      ((Binary64.ofDecimal? negative (digitsValue (whole ++ fraction))
        (exponent - fraction.length)).map .float) := by
  have hfractionPart : ((ofWhole negative whole).withFraction fraction).part = .zero ∨
      ((ofWhole negative whole).withFraction fraction).part = .whole ∨
      ((ofWhole negative whole).withFraction fraction).part = .fraction := by
    simp only [withFraction]
    split
    · exact (ofWhole_part negative whole).imp id .inl
    · exact .inr (.inr rfl)
  obtain ⟨n, hread, hraised, hpower⟩ := foldlM_next?_exponent hexponent hfractionPart ⟨rfl, rfl⟩
  have hpart : n.part = .fraction ∨ n.part = .power := by
    by_cases hmark : exponentText = []
    · cases hfraction with
      | none => exact absurd hmark hmarked
      | some hds => exact hraised.part.symm.imp (by simp [withFraction, hds.1]) id
    · exact .inr (hpower hmark)
  refine ⟨n, ?_, ?_, ?_⟩
  · intro p
    rw [encode_append, encode_append, List.foldl_append, List.foldl_append,
      Reader.foldl_feed_whole hwhole, Reader.foldl_feed_number
        (foldlM_next?_withFraction hfraction (ofWhole_part negative whole) rfl)]
    exact Reader.foldl_feed_number hread
  · have hdigits : n.digits = digitsValue (whole ++ fraction) := by
      rw [hraised.digits, digitsValue, List.foldl_append]
      rfl
    rw [value?_float hpart, hraised.negative, hdigits, hraised.places, hraised.tenPower]
    rfl
  · intro b hb
    exact Complete.next?_delimiter (.inr (.inr hpart)) hb

theorem EndsIn.numeral {n : Numeral} {t : List Char} (h : n.Text t) : EndsIn t n.value? := by
  cases h with
  | @whole negative ds hds => exact .whole negative hds
  | @decimal negative _ _ _ _ _ hwhole hfraction hexponent hmarked =>
      exact .decimal negative hwhole hfraction hexponent hmarked

end SpanStore.Json
