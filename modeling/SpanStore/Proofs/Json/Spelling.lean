import SpanStore.Proofs.Json.Tree
import SpanStore.Proofs.Text.Utf8

namespace SpanStore.Json

open Grammar

namespace Value

mutual

def AllInts (P : Int → Prop) : Value → Prop
  | int n => P n
  | list items => ItemsAllInts P items
  | object members => MembersAllInts P members
  | _ => True

def ItemsAllInts (P : Int → Prop) : List Value → Prop
  | [] => True
  | v :: vs => AllInts P v ∧ ItemsAllInts P vs

def MembersAllInts (P : Int → Prop) : List (String × Value) → Prop
  | [] => True
  | m :: ms => AllInts P m.2 ∧ MembersAllInts P ms

end

theorem itemsAllInts_iff {P : Int → Prop} {vs : List Value} :
    ItemsAllInts P vs ↔ ∀ v ∈ vs, v.AllInts P := by
  induction vs with
  | nil => simp [ItemsAllInts]
  | cons v vs ih => rw [ItemsAllInts, ih, List.forall_mem_cons]

end Value

/-- Whole numbers that have at most 63 bits beside their sign. -/
def FitsReader (n : Int) : Prop := n.natAbs < 2 ^ 63

namespace Piece

theorem isHigh_toNat (c : Char) : isHigh c.toNat = false := by
  have hbound := Text.Utf8.toNat_lt_or_lt c
  simp only [isHigh, Bool.and_eq_false_iff, decide_eq_false_iff_not]
  omega

theorem isLow_toNat (c : Char) : isLow c.toNat = false := by
  have hbound := Text.Utf8.toNat_lt_or_lt c
  simp only [isLow, Bool.and_eq_false_iff, decide_eq_false_iff_not]
  omega

end Piece

namespace Glyph

theorem Content.append {gs hs : List Glyph} {t u : List Char} (h : Content gs t)
    (hu : Content hs u) : Content (gs ++ hs) (t ++ u) := by
  induction h with
  | nil => exact hu
  | cons hg _ ih =>
      rw [List.append_assoc]
      exact .cons hg ih

theorem Content.single {g : Glyph} {t : List Char} (h : g.Text t) : Content [g] t := by
  simpa using Content.cons h .nil

theorem exists_of_char {c : Char} {t : List Char} (h : CharText c t) :
    ∃ gs, Content gs t ∧ ∀ rest, text? none (gs ++ rest) = (text? none rest).map (c :: ·) := by
  cases h with
  | plain hcontrol hquote hescape =>
      exact ⟨[char c], .single (.plain hcontrol hquote hescape), fun _ => rfl⟩
  | letter hletter => exact ⟨[char c], .single (.letter hletter), fun _ => rfl⟩
  | unit hunit =>
      refine ⟨[unit c.toNat], .single (.unit hunit), fun rest => ?_⟩
      simp [text?, Piece.isHigh_toNat, Piece.isLow_toNat]
  | @pair _ high low _ _ hhigh hlow hhighBound hlowBound hvalue =>
      refine ⟨[unit (0xD800 + high), unit (0xDC00 + low)],
        Content.append (.single (.unit hhigh)) (.single (.unit hlow)), fun rest => ?_⟩
      have hunit : Piece.isHigh (0xD800 + high) = true := by
        simp only [Piece.isHigh, Bool.and_eq_true, decide_eq_true_eq]
        omega
      have hcombine : Piece.combine (0xD800 + high) (0xDC00 + low) = c := by
        have hrest : (0xD800 + high) % 0x400 = high ∧ (0xDC00 + low) % 0x400 = low := by omega
        rw [Piece.combine, hrest.1, hrest.2, ← hvalue, Char.ofNat_toNat]
      simp [text?, hunit, hcombine]

theorem exists_of_content {s t : List Char} (h : ContentText s t) :
    ∃ gs, Content gs t ∧ text? none gs = some s := by
  induction h with
  | nil => exact ⟨[], .nil, rfl⟩
  | cons hc _ ih =>
      obtain ⟨gs, hgs, htext⟩ := exists_of_char hc
      obtain ⟨hs, hhs, hrest⟩ := ih
      refine ⟨gs ++ hs, hgs.append hhs, ?_⟩
      rw [htext, hrest]
      rfl

theorem exists_of_string {s : String} {t : List Char} (h : StringText s t) :
    ∃ gs, Quoted gs t ∧ string? gs = some s := by
  cases h with
  | quoted hcontent =>
      obtain ⟨gs, hgs, htext⟩ := exists_of_content hcontent
      refine ⟨gs, .quoted hgs, ?_⟩
      rw [string?, htext, Option.map_some, String.ofList_toList]

end Glyph

namespace Numeral

theorem exists_of_int {n : Int} {t : List Char} (h : IntText n t) :
    ∃ m : Numeral, m.Text t ∧ ∀ w, m.value? = some w ↔ FitsReader n ∧ .int n = w := by
  cases h with
  | @positive ds hds =>
      refine ⟨.whole false t, .whole hds, fun w => ?_⟩
      simp [value?, FitsReader]
  | @negative ds hds =>
      refine ⟨.whole true ds, .whole hds, fun w => ?_⟩
      simp [value?, FitsReader]

theorem exists_of_float {f : Float} {t : List Char} (h : FloatText f t) :
    ∃ m : Numeral, m.Text t ∧ m.value? = some (.float f) := by
  cases h with
  | @nearest negative ds fraction _ _ exponent _ hwhole hfraction hexponent hmarked hvalue =>
      refine ⟨.decimal negative ds fraction exponent,
        .decimal hwhole hfraction hexponent hmarked, ?_⟩
      rw [value?, hvalue]
      rfl

end Numeral

namespace Tree

mutual

theorem exists_of_value {v : Value} {t : List Char} (h : ValueText v t) :
    ∃ s : Tree, s.Text t ∧ ∀ w, s.value? = some w ↔ v.AllInts FitsReader ∧ v = w := by
  match h with
  | .null => exact ⟨_, .null, by simp [value?, Value.AllInts]⟩
  | .true => exact ⟨_, .true, by simp [value?, Value.AllInts]⟩
  | .false => exact ⟨_, .false, by simp [value?, Value.AllInts]⟩
  | .int hn =>
      obtain ⟨m, hm, hvalue⟩ := Numeral.exists_of_int hn
      exact ⟨.number m, .number hm, hvalue⟩
  | .float hf =>
      obtain ⟨m, hm, hvalue⟩ := Numeral.exists_of_float hf
      exact ⟨.number m, .number hm, by simp [value?, hvalue, Value.AllInts]⟩
  | .text hs =>
      obtain ⟨gs, hgs, htext⟩ := Glyph.exists_of_string hs
      exact ⟨.text gs, .text hgs, by simp [value?, htext, Value.AllInts]⟩
  | .emptyList hw =>
      exact ⟨_, .emptyList hw, by simp [value?, itemsValue?, Value.AllInts, Value.ItemsAllInts]⟩
  | .list hitems =>
      obtain ⟨ss, hss, hvalue⟩ := exists_of_items hitems
      exact ⟨_, .list hss, by simp [value?, hvalue, Value.AllInts, and_assoc]⟩
  | .emptyObject hw =>
      exact ⟨_, .emptyObject hw, by
        simp [value?, membersValue?, Value.AllInts, Value.MembersAllInts]⟩
  | .object hmembers =>
      obtain ⟨ms, hms, hvalue⟩ := exists_of_members hmembers
      exact ⟨_, .object hms, by simp [value?, hvalue, Value.AllInts, and_assoc]⟩

theorem exists_of_padded {v : Value} {t : List Char} (h : PaddedText v t) :
    ∃ s : Tree, s.Padded t ∧ ∀ w, s.value? = some w ↔ v.AllInts FitsReader ∧ v = w := by
  match h with
  | .around hw hv hw' =>
      obtain ⟨s, hs, hvalue⟩ := exists_of_value hv
      exact ⟨s, .around hw hs hw', hvalue⟩

theorem exists_of_items {vs : List Value} {t : List Char} (h : ItemsText vs t) :
    ∃ ss, Items ss t ∧
      ∀ ws, itemsValue? ss = some ws ↔ Value.ItemsAllInts FitsReader vs ∧ vs = ws := by
  match h with
  | .one hv =>
      obtain ⟨s, hs, hvalue⟩ := exists_of_padded hv
      exact ⟨[s], .one hs, by simp [itemsValue?_singleton, hvalue, Value.ItemsAllInts, and_assoc]⟩
  | .more hv hvs =>
      obtain ⟨s, hs, hvalue⟩ := exists_of_padded hv
      obtain ⟨ss, hss, hvalues⟩ := exists_of_items hvs
      refine ⟨s :: ss, .more hs hss, ?_⟩
      simp [itemsValue?, Option.bind_eq_some_iff, hvalue, hvalues, Value.ItemsAllInts, and_assoc]

theorem exists_of_members {ms : List (String × Value)} {t : List Char} (h : MembersText ms t) :
    ∃ ns, Members ns t ∧
      ∀ ws, membersValue? ns = some ws ↔ Value.MembersAllInts FitsReader ms ∧ ms = ws := by
  match h with
  | .one hw hn hw' hv =>
      obtain ⟨gs, hgs, hname⟩ := Glyph.exists_of_string hn
      obtain ⟨s, hs, hvalue⟩ := exists_of_padded hv
      refine ⟨[(gs, s)], .one hw hgs hw' hs, ?_⟩
      simp [membersValue?_singleton, hname, hvalue, Value.MembersAllInts, and_assoc]
  | .more hw hn hw' hv hms =>
      obtain ⟨gs, hgs, hname⟩ := Glyph.exists_of_string hn
      obtain ⟨s, hs, hvalue⟩ := exists_of_padded hv
      obtain ⟨ns, hns, hvalues⟩ := exists_of_members hms
      refine ⟨(gs, s) :: ns, .more hw hgs hw' hs hns, ?_⟩
      simp [membersValue?, hname, Option.bind_eq_some_iff, hvalue, hvalues, Value.MembersAllInts,
        and_assoc]

end

end Tree

end SpanStore.Json
