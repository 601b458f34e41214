import Mathlib.Data.List.Basic
import SpanStore.Json.Printer
import SpanStore.Proofs.Json.Exact
import SpanStore.Proofs.Json.NumberText
import SpanStore.Proofs.Text.Hex

namespace SpanStore.Json

open Grammar Text.Utf8

def Graphic (c : Char) : Prop := 0x20 ≤ c.toNat ∧ c.toNat < 0x7F

instance : DecidablePred Graphic := fun c =>
  inferInstanceAs (Decidable (0x20 ≤ c.toNat ∧ c.toNat < 0x7F))

theorem graphic_of_all {t : List Char} (h : t.all (fun c => decide (Graphic c)) = true) :
    ∀ c ∈ t, Graphic c := fun c hc => of_decide_eq_true (List.all_eq_true.mp h c hc)

def Charset.Prints : Charset → Char → Prop
  | .ascii, c => Graphic c
  | .unicode, c => 0x20 ≤ c.toNat

theorem Graphic.prints {c : Char} (h : Graphic c) (charset : Charset) : charset.Prints c := by
  cases charset with
  | ascii => exact h
  | unicode => exact h.1

theorem Charset.Prints.not_control {charset : Charset} {c : Char} (h : charset.Prints c) :
    0x20 ≤ c.toNat := by
  cases charset with
  | ascii => exact h.1
  | unicode => exact h

namespace Grammar

theorem unitText_hexDigits {n : Nat} (h : n < 0x10000) : UnitText n (Text.hexDigits 4 n) := by
  have hdigit (m : Nat) := Text.hexValue?_digitChar (m % 16) (Nat.mod_lt m (by decide))
  have hunit := UnitText.digits (hdigit (n / 16 / 16 / 16)) (hdigit (n / 16 / 16))
    (hdigit (n / 16)) (hdigit n)
  have hvalue : ((n / 16 / 16 / 16 % 16 * 16 + n / 16 / 16 % 16) * 16 + n / 16 % 16) * 16 + n % 16 =
      n := by
    omega
  rw [hvalue] at hunit
  exact hunit

end Grammar

namespace Printer

theorem charText_unitEscapes (c : Char) : CharText c (unitEscapes c) := by
  have hbound := toNat_lt_or_lt c
  rw [unitEscapes]
  split
  · rename_i hunit
    exact .unit (unitText_hexDigits hunit)
  · have hhigh : (c.toNat - 0x10000) / 0x400 < 0x400 := by omega
    have hlow : (c.toNat - 0x10000) % 0x400 < 0x400 := Nat.mod_lt _ (by decide)
    exact .pair (unitText_hexDigits (by omega)) (unitText_hexDigits (by omega)) hhigh hlow
      (by omega)

inductive Escaped (charset : Charset) (c : Char) : List Char → Prop where
  | letter {e : Char} (h : (e, c) ∈ letterEscapes) : Escaped charset c ['\\', e]
  | units : Escaped charset c (unitEscapes c)
  | plain (hquote : c ≠ '\x22') (hescape : c ≠ '\\') (h : charset.Prints c) :
      Escaped charset c [c]

theorem escaped_escape (charset : Charset) (c : Char) : Escaped charset c (escape charset c) := by
  have hletter {e d : Char} (hc : c = d) (h : (e, d) ∈ letterEscapes) :
      Escaped charset c ['\\', e] := by
    subst hc
    exact .letter h
  simp only [escape, beq_iff_eq]
  -- The characters with a letter of their own come first, in the order of the printer.
  split
  · exact hletter ‹_› (by decide)
  split
  · exact hletter ‹_› (by decide)
  split
  · exact hletter ‹_› (by decide)
  split
  · exact hletter ‹_› (by decide)
  split
  · exact hletter ‹_› (by decide)
  split
  · exact hletter ‹_› (by decide)
  split
  · exact hletter ‹_› (by decide)
  split
  · exact .units
  · rename_i hquote hescape _ _ _ _ _ hcontrol
    have hlow : 0x20 ≤ c.toNat := Nat.le_of_not_lt hcontrol
    cases charset with
    | unicode => exact .plain hquote hescape hlow
    | ascii =>
        dsimp only
        split
        · rename_i hhigh
          exact .plain hquote hescape ⟨hlow, hhigh⟩
        · exact .units

theorem Escaped.charText {charset : Charset} {c : Char} {t : List Char}
    (h : Escaped charset c t) : CharText c t := by
  cases h with
  | letter he => exact .letter he
  | units => exact charText_unitEscapes c
  | plain hquote hescape h => exact .plain h.not_control hquote hescape

theorem contentText_escape (charset : Charset) (s : List Char) :
    ContentText s (s.flatMap (escape charset)) := by
  induction s with
  | nil => exact .nil
  | cons c s ih =>
      rw [List.flatMap_cons]
      exact .cons (escaped_escape charset c).charText ih

theorem stringText_string (charset : Charset) (s : String) : StringText s (string charset s) :=
  .quoted (contentText_escape charset s.toList)

theorem compactItems_next (charset : Charset) (v : Value) (vs : List Value) :
    compactItems charset false (v :: vs) = ',' :: compactItems charset true (v :: vs) := rfl

theorem compactMembers_next (charset : Charset) (m : String × Value)
    (ms : List (String × Value)) :
    compactMembers charset false (m :: ms) = ',' :: compactMembers charset true (m :: ms) := rfl

theorem compactItems_eq_intercalate (charset : Charset) (vs : List Value) :
    compactItems charset true vs = [','].intercalate (vs.map (compact charset)) := by
  induction vs with
  | nil => rfl
  | cons v vs ih =>
      cases vs with
      | nil => simp [compactItems, List.intercalate_singleton]
      | cons w ws =>
          rw [List.map_cons, List.map_cons, List.intercalate_cons_cons, ← List.map_cons, ← ih,
            compactItems, compactItems_next]
          simp

section Text

variable (charset : Charset)

mutual

theorem valueText_finite (v : Value) (hbytes : v.holdsBytes = false)
    (hfloats : v.AllFloats (Binary64.isFinite ·)) : ValueText v (compact charset v) := by
  cases v with
  | null => exact .null
  | bool b =>
      cases b with
      | true => exact .true
      | false => exact .false
  | int n => exact .int (intText_int n)
  | float f => exact .float (floatText_text hfloats)
  | text s => exact .text (stringText_string charset s)
  | bytes bs => cases hbytes
  | list items =>
      by_cases hitems : items = []
      · subst hitems
        exact .emptyList .nil
      · exact .list (itemsText_finite items hitems hbytes hfloats)
  | object members =>
      by_cases hmembers : members = []
      · subst hmembers
        exact .emptyObject .nil
      · exact .object (membersText_finite members hmembers hbytes hfloats)

theorem itemsText_finite (vs : List Value) (hne : vs ≠ [])
    (hbytes : Value.itemsHoldBytes vs = false)
    (hfloats : Value.ItemsAllFloats (Binary64.isFinite ·) vs) :
    ItemsText vs (compactItems charset true vs) := by
  cases vs with
  | nil => exact absurd rfl hne
  | cons v vs =>
      obtain ⟨hv, hvs⟩ := Bool.or_eq_false_iff.mp hbytes
      have hfirst : PaddedText v (compact charset v) := .bare (valueText_finite v hv hfloats.1)
      cases vs with
      | nil => simpa [compactItems] using ItemsText.one hfirst
      | cons w ws =>
          rw [compactItems, compactItems_next]
          exact .more hfirst (itemsText_finite (w :: ws) (List.cons_ne_nil w ws) hvs hfloats.2)

theorem membersText_finite (ms : List (String × Value)) (hne : ms ≠ [])
    (hbytes : Value.membersHoldBytes ms = false)
    (hfloats : Value.MembersAllFloats (Binary64.isFinite ·) ms) :
    MembersText ms (compactMembers charset true ms) := by
  cases ms with
  | nil => exact absurd rfl hne
  | cons m ms =>
      obtain ⟨hv, hvs⟩ := Bool.or_eq_false_iff.mp hbytes
      have hname := stringText_string charset m.1
      have hfirst : PaddedText m.2 (compact charset m.2) :=
        .bare (valueText_finite m.2 hv hfloats.1)
      cases ms with
      | nil => simpa [compactMembers] using MembersText.one .nil hname .nil hfirst
      | cons m' ms =>
          have hrest := membersText_finite (m' :: ms) (List.cons_ne_nil m' ms) hvs hfloats.2
          rw [compactMembers, compactMembers_next]
          simpa using MembersText.more .nil hname .nil hfirst hrest

end

theorem valueText_compact {P : Int → Prop} (v : Value) (h : v.Exact P) :
    ValueText v (compact charset v) :=
  valueText_finite charset v h.holdsBytes_eq (h.allFloats _)

end Text

section Characters

theorem graphic_toDigits (n : Nat) : ∀ c ∈ Nat.toDigits 10 n, Graphic c := by
  intro c hc
  obtain ⟨hlow, hhigh⟩ := digit_bounds hc
  rw [Char.le_def, UInt32.le_iff_toNat_le] at hlow hhigh
  exact ⟨Nat.le_trans (by decide) hlow, Nat.lt_of_le_of_lt hhigh (by decide)⟩

theorem graphic_int (n : Int) : ∀ c ∈ int n, Graphic c := by
  rw [int]
  split
  · rw [List.forall_mem_cons]
    exact ⟨by decide, graphic_toDigits n.natAbs⟩
  · exact graphic_toDigits n.natAbs

theorem graphic_letterEscapes : ∀ p ∈ letterEscapes, Graphic p.1 := by decide

theorem graphic_digitChar : ∀ n < 16, Graphic n.digitChar := by decide

theorem graphic_hexDigits (width n : Nat) : ∀ c ∈ Text.hexDigits width n, Graphic c := by
  induction width generalizing n with
  | zero => simp [Text.hexDigits]
  | succ width ih =>
      rw [Text.hexDigits, List.forall_mem_append, List.forall_mem_singleton]
      exact ⟨ih (n / 16), graphic_digitChar (n % 16) (Nat.mod_lt n (by decide))⟩

theorem graphic_unitEscape (n : Nat) : ∀ c ∈ unitEscape n, Graphic c := by
  rw [unitEscape, List.forall_mem_cons, List.forall_mem_cons]
  exact ⟨by decide, by decide, graphic_hexDigits 4 n⟩

theorem graphic_unitEscapes (c : Char) : ∀ d ∈ unitEscapes c, Graphic d := by
  rw [unitEscapes]
  split
  · exact graphic_unitEscape _
  · rw [List.forall_mem_append]
    exact ⟨graphic_unitEscape _, graphic_unitEscape _⟩

theorem graphic_layout {ds : List Char} (hds : ∀ c ∈ ds, Graphic c) (point : Int) :
    ∀ c ∈ Shortest.layout ds point, Graphic c := by
  have htake (n : Nat) : ∀ c ∈ ds.take n, Graphic c := fun c hc => hds c (List.mem_of_mem_take hc)
  have hdrop (n : Nat) : ∀ c ∈ ds.drop n, Graphic c := fun c hc => hds c (List.mem_of_mem_drop hc)
  have hzeros (n : Nat) : ∀ c ∈ List.replicate n '0', Graphic c := by
    intro c hc
    rw [List.eq_of_mem_replicate hc]
    decide
  have hsize := graphic_toDigits (point - 1).natAbs
  unfold Shortest.layout
  split
  · split
    · simp only [List.cons_append, List.forall_mem_cons, List.forall_mem_append]
      exact ⟨by decide, by decide, hzeros _, hds⟩
    · simp only [List.forall_mem_append, List.forall_mem_cons]
      refine ⟨⟨htake _, hzeros _⟩, by decide, ?_⟩
      split
      · exact graphic_of_all rfl
      · exact hdrop _
  · simp only [List.forall_mem_append, List.forall_mem_cons]
    refine ⟨⟨htake 1, ?_⟩, by decide, ?_, ?_⟩
    · split
      · simp
      · rw [List.forall_mem_cons]
        exact ⟨by decide, hdrop 1⟩
    · split <;> decide
    · split
      · rw [List.forall_mem_cons]
        exact ⟨by decide, hsize⟩
      · exact hsize

theorem graphic_finiteText (negative : Bool) (significand : Nat) (exponent : Int) :
    ∀ c ∈ Shortest.finiteText negative significand exponent, Graphic c := by
  have hbody : ∀ c ∈ Shortest.finiteText false significand exponent, Graphic c := by
    simp only [Shortest.finiteText, Bool.false_eq_true, if_false]
    split
    · exact graphic_of_all rfl
    · apply graphic_layout
      intro c hc
      rw [List.mem_reverse] at hc
      have hdigit := List.mem_reverse.mp ((List.dropWhile_sublist _).subset hc)
      exact graphic_toDigits _ c hdigit
  cases negative with
  | false => exact hbody
  | true =>
      change ∀ c ∈ '-' :: Shortest.finiteText false significand exponent, Graphic c
      rw [List.forall_mem_cons]
      exact ⟨by decide, hbody⟩

theorem graphic_float (f : Float) : ∀ c ∈ (Shortest.text words f).toList, Graphic c := by
  rw [Shortest.text]
  split
  · rw [String.toList_ofList]
    exact graphic_finiteText _ _ _
  · split <;> exact graphic_of_all rfl
  · exact graphic_of_all rfl

theorem Escaped.prints {charset : Charset} {c : Char} {t : List Char} (h : Escaped charset c t) :
    ∀ d ∈ t, charset.Prints d := by
  cases h with
  | @letter e he =>
      have hletter : Graphic e := graphic_letterEscapes (e, c) he
      rw [List.forall_mem_cons, List.forall_mem_singleton]
      exact ⟨Graphic.prints (by decide) charset, hletter.prints charset⟩
  | units => exact fun d hd => (graphic_unitEscapes c d hd).prints charset
  | plain _ _ hprints => exact List.forall_mem_singleton.mpr hprints

theorem prints_string (charset : Charset) (s : String) :
    ∀ c ∈ string charset s, charset.Prints c := by
  have hquote : charset.Prints '\x22' := Graphic.prints (by decide) charset
  rw [string, List.forall_mem_append, List.forall_mem_cons, List.forall_mem_singleton]
  refine ⟨⟨hquote, ?_⟩, hquote⟩
  intro d hd
  obtain ⟨c, -, hc⟩ := List.mem_flatMap.mp hd
  exact (escaped_escape charset c).prints d hc

section Compact

variable (charset : Charset)

theorem prints_of_graphic {t : List Char} (h : ∀ c ∈ t, Graphic c) : ∀ c ∈ t, charset.Prints c :=
  fun c hc => (h c hc).prints charset

theorem prints_comma (first : Bool) : ∀ c ∈ if first then [] else [','], charset.Prints c := by
  cases first with
  | true => exact List.forall_mem_nil _
  | false => exact List.forall_mem_singleton.mpr (Graphic.prints (by decide) charset)

mutual

theorem prints_compact (v : Value) : ∀ c ∈ compact charset v, charset.Prints c := by
  have hword {t : List Char} (h : ∀ c ∈ t, Graphic c) := prints_of_graphic charset h
  have hmark {c : Char} (h : Graphic c) := h.prints charset
  cases v with
  | null => exact hword (t := ['n', 'u', 'l', 'l']) (graphic_of_all rfl)
  | bool b =>
      cases b with
      | true => exact hword (t := ['t', 'r', 'u', 'e']) (graphic_of_all rfl)
      | false => exact hword (t := ['f', 'a', 'l', 's', 'e']) (graphic_of_all rfl)
  | int n => exact hword (graphic_int n)
  | float f => exact hword (graphic_float f)
  | text s => exact prints_string charset s
  | bytes bs => exact List.forall_mem_nil _
  | list items =>
      simp only [compact, List.cons_append, List.forall_mem_cons, List.forall_mem_append]
      exact ⟨hmark (by decide), prints_compactItems true items, hmark (by decide),
        List.forall_mem_nil _⟩
  | object members =>
      simp only [compact, List.cons_append, List.forall_mem_cons, List.forall_mem_append]
      exact ⟨hmark (by decide), prints_compactMembers true members, hmark (by decide),
        List.forall_mem_nil _⟩

theorem prints_compactItems (first : Bool) (vs : List Value) :
    ∀ c ∈ compactItems charset first vs, charset.Prints c := by
  cases vs with
  | nil => exact List.forall_mem_nil _
  | cons v vs =>
      simp only [compactItems, List.forall_mem_append]
      exact ⟨⟨prints_comma charset first, prints_compact v⟩, prints_compactItems false vs⟩

theorem prints_compactMembers (first : Bool) (ms : List (String × Value)) :
    ∀ c ∈ compactMembers charset first ms, charset.Prints c := by
  cases ms with
  | nil => exact List.forall_mem_nil _
  | cons m ms =>
      simp only [compactMembers, List.cons_append, List.append_assoc, List.forall_mem_append,
        List.forall_mem_cons]
      exact ⟨prints_comma charset first, prints_string charset m.1,
        Graphic.prints (by decide) charset, prints_compact m.2, prints_compactMembers false ms⟩

end

end Compact

end Characters

end Printer

namespace Value

/-- What JSON can express: no raw bytes, and only finite floating-point numbers. -/
def Printable (v : Value) : Prop := v.holdsBytes = false ∧ v.AllFloats (Binary64.isFinite ·)

theorem printable_list_iff (vs : List Value) : (list vs).Printable ↔ ∀ v ∈ vs, v.Printable := by
  induction vs with
  | nil => exact iff_of_true ⟨rfl, trivial⟩ (List.forall_mem_nil _)
  | cons v vs ih =>
      rw [List.forall_mem_cons, ← ih]
      simp only [Printable, holdsBytes, itemsHoldBytes, AllFloats, ItemsAllFloats,
        Bool.or_eq_false_iff]
      exact and_and_and_comm

theorem printable_object_iff (ms : List (String × Value)) :
    (object ms).Printable ↔ ∀ m ∈ ms, m.2.Printable := by
  induction ms with
  | nil => exact iff_of_true ⟨rfl, trivial⟩ (List.forall_mem_nil _)
  | cons m ms ih =>
      rw [List.forall_mem_cons, ← ih]
      simp only [Printable, holdsBytes, membersHoldBytes, AllFloats, MembersAllFloats,
        Bool.or_eq_false_iff]
      exact and_and_and_comm

theorem compactBytes_no_control (charset : Charset) (v : Value) :
    ∀ b ∈ v.compactBytes charset, 0x20 ≤ b.toNat := by
  intro b hb
  obtain ⟨c, hc, hb⟩ := List.mem_flatMap.mp hb
  have hlow := (Printer.prints_compact charset v c hc).not_control
  rcases mem_encodeChar hb with ⟨-, h⟩ | ⟨-, h⟩ <;> omega

theorem compactBytes_ascii (v : Value) : ∀ b ∈ v.compactBytes .ascii, b.toNat < 0x80 := by
  intro b hb
  obtain ⟨c, hc, hb⟩ := List.mem_flatMap.mp hb
  obtain ⟨-, hhigh⟩ : Graphic c := Printer.prints_compact .ascii v c hc
  rcases mem_encodeChar hb with ⟨-, h⟩ | ⟨h, -⟩ <;> omega

theorem compactBytes_member (charset : Charset) (name : String) (v : Value) :
    (object [(name, v)]).compactBytes charset =
      encode ('\x7b' :: Printer.string charset name ++ [':']) ++ v.compactBytes charset ++
        encode "\x7d".toList := by
  simp [compactBytes, Printer.compact, Printer.compactMembers, ← encode_append]

theorem compactBytes_list (charset : Charset) (vs : List Value) :
    (list vs).compactBytes charset = encode "[".toList ++
      (encode ",".toList).intercalate (vs.map fun v => v.compactBytes charset) ++
        encode "]".toList := by
  have hitems : encode (Printer.compactItems charset true vs) =
      (encode ",".toList).intercalate (vs.map fun v => v.compactBytes charset) := by
    rw [Printer.compactItems_eq_intercalate, encode_intercalate, List.map_map]
    rfl
  rw [← hitems, ← encode_append, ← encode_append]
  rfl

theorem parse?_compactBytes_finite (charset : Charset) {v : Value} (hbytes : v.holdsBytes = false)
    (hfloats : v.AllFloats (Binary64.isFinite ·)) (hints : v.AllInts FitsReader) :
    parse? (v.compactBytes charset) = some v := by
  have htext := PaddedText.bare (Printer.valueText_finite charset v hbytes hfloats)
  rw [parse?, compactBytes, Reader.ofBytes_text htext hints]
  rfl

theorem parse?_compactBytes (charset : Charset) {v : Value} (h : v.Exact FitsReader) :
    parse? (v.compactBytes charset) = some v :=
  parse?_compactBytes_finite charset h.holdsBytes_eq (h.allFloats _) h.allInts

end Value

end SpanStore.Json
