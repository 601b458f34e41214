import SpanStore.Proofs.Json.Nesting
import SpanStore.Proofs.Json.Printing

/-!
When a printed value is JSON. Outside of strings no JSON text has a capital `N` or `I`, and what is
printed for a value has one exactly if a floating-point number in the value is not finite: the
words for those are the only ones that begin with these letters.
-/
namespace SpanStore.Json

open Grammar

def WellFormed (bs : List UInt8) : Prop :=
  ∃ (s : Tree) (t : List Char), s.Padded t ∧ Text.Utf8.encode t = bs

/-- Where the next character stands, and whether a word that is no JSON began outside of strings. -/
structure Hearing where
  context : Context
  foreign : Bool

namespace Hearing

def step (s : Hearing) (c : Char) : Hearing :=
  match s.context with
  | .outside =>
      if c = '\x22' then { s with context := .inside }
      else { s with foreign := s.foreign || decide (c = 'N' ∨ c = 'I') }
  | .inside =>
      if c = '\x22' then { s with context := .outside }
      else if c = '\\' then { s with context := .escaped }
      else s
  | .escaped => { s with context := .inside }

def ofText (s : Hearing) (t : List Char) : Hearing := t.foldl step s

theorem ofText_append (s : Hearing) (t u : List Char) :
    s.ofText (t ++ u) = (s.ofText t).ofText u := List.foldl_append

theorem ofText_cons (s : Hearing) (c : Char) (t : List Char) :
    s.ofText (c :: t) = (s.step c).ofText t := rfl

end Hearing

open Hearing

/-- The text begins and ends outside of strings, and a foreign word begins in it exactly under the
condition. -/
def Shows (t : List Char) (foreign : Prop) : Prop :=
  ∀ b, ∃ b', ofText ⟨.outside, b⟩ t = ⟨.outside, b'⟩ ∧ (b' = true ↔ b = true ∨ foreign)

namespace Shows

variable {t u : List Char} {P Q : Prop}

theorem of_same (h : ∀ b, ofText ⟨.outside, b⟩ t = ⟨.outside, b⟩) : Shows t False :=
  fun b => ⟨b, h b, by simp⟩

theorem of_foreign (h : ∀ b, ofText ⟨.outside, b⟩ t = ⟨.outside, true⟩) : Shows t True :=
  fun b => ⟨true, h b, by simp⟩

theorem congr (h : Shows t P) (hPQ : P ↔ Q) : Shows t Q := propext hPQ ▸ h

theorem append (ht : Shows t P) (hu : Shows u Q) : Shows (t ++ u) (P ∨ Q) := by
  intro b
  obtain ⟨b', ht', hb'⟩ := ht b
  obtain ⟨b'', hu', hb''⟩ := hu b'
  refine ⟨b'', ?_, ?_⟩
  · rw [ofText_append, ht', hu']
  · rw [hb'', hb', or_assoc]

theorem prepend (ht : Shows t False) (hu : Shows u Q) : Shows (t ++ u) Q :=
  (ht.append hu).congr (iff_of_eq (false_or Q))

theorem extend (ht : Shows t P) (hu : Shows u False) : Shows (t ++ u) P :=
  (ht.append hu).congr (iff_of_eq (or_false P))

def Plain (t : List Char) : Prop := ∀ c ∈ t, c ≠ '\x22' ∧ c ≠ 'N' ∧ c ≠ 'I'

theorem of_plain (h : Plain t) : Shows t False := by
  refine of_same fun b => ?_
  induction t with
  | nil => rfl
  | cons c t ih =>
      obtain ⟨⟨hquote, hN, hI⟩, hrest⟩ := List.forall_mem_cons.mp h
      have hstep : step ⟨.outside, b⟩ c = ⟨.outside, b⟩ := by simp [step, hquote, hN, hI]
      rw [ofText_cons, hstep, ih hrest]

end Shows

theorem ofText_glyph {g : Glyph} {t : List Char} (h : g.Text t) (b : Bool) :
    ofText ⟨.inside, b⟩ t = ⟨.inside, b⟩ := by
  have hhex {c : Char} {i : Nat} (hc : Text.hexValue? c = some i) :
      step ⟨.inside, b⟩ c = ⟨.inside, b⟩ := by
    have hquote : c ≠ '\x22' := by rintro rfl; cases hc
    have hescape : c ≠ '\\' := by rintro rfl; cases hc
    simp [step, hquote, hescape]
  cases h with
  | plain hcontrol hquote hescape => simp [ofText, step, hquote, hescape]
  | letter hletter => rfl
  | unit hunit =>
      cases hunit with
      | digits ha hb hc hd =>
          change ofText ⟨.inside, b⟩ [_, _, _, _] = _
          rw [ofText_cons, hhex ha, ofText_cons, hhex hb, ofText_cons, hhex hc, ofText_cons, hhex hd]
          rfl

theorem ofText_content {gs : List Glyph} {t : List Char} (h : Glyph.Content gs t) (b : Bool) :
    ofText ⟨.inside, b⟩ t = ⟨.inside, b⟩ := by
  induction h with
  | nil => rfl
  | cons hg _ ih => rw [ofText_append, ofText_glyph hg, ih]

namespace Shows

variable {t : List Char}

theorem quoted {gs : List Glyph} (h : Glyph.Quoted gs t) : Shows t False := by
  cases h with
  | quoted hcontent =>
      refine of_same fun b => ?_
      rw [List.cons_append, ofText_cons, ofText_append]
      change (ofText ⟨.inside, b⟩ _).ofText _ = _
      rw [ofText_content hcontent]
      rfl

theorem plain_digits {ds : List Char} (h : ∀ c ∈ ds, '0' ≤ c ∧ c ≤ '9') : Plain ds := by
  intro c hc
  have hdigit := h c hc
  refine ⟨?_, ?_, ?_⟩ <;> rintro rfl <;> exact absurd hdigit (by decide)

theorem plain_cons {c : Char} (hc : c ≠ '"' ∧ c ≠ 'N' ∧ c ≠ 'I') (h : Plain t) :
    Plain (c :: t) := List.forall_mem_cons.mpr ⟨hc, h⟩

theorem sign (negative : Bool) : Shows (signText negative) False := by
  refine of_plain ?_
  cases negative with
  | false => exact List.forall_mem_nil _
  | true => exact plain_cons (by decide) (List.forall_mem_nil _)

theorem fraction {ds : List Char} (h : FractionText ds t) : Shows t False := by
  refine of_plain ?_
  cases h with
  | none => exact List.forall_mem_nil _
  | some hds => exact plain_cons (by decide) (plain_digits hds.2)

theorem exponent {e : Int} (h : ExponentText e t) : Shows t False := by
  have hmark {m : Char} (hm : m = 'e' ∨ m = 'E') : m ≠ '"' ∧ m ≠ 'N' ∧ m ≠ 'I' := by
    rcases hm with rfl | rfl <;> decide
  refine of_plain ?_
  cases h with
  | none => exact List.forall_mem_nil _
  | plain hm hds => exact plain_cons (hmark hm) (plain_digits hds.2)
  | plus hm hds => exact plain_cons (hmark hm) (plain_cons (by decide) (plain_digits hds.2))
  | minus hm hds => exact plain_cons (hmark hm) (plain_cons (by decide) (plain_digits hds.2))

theorem numeral {n : Numeral} (h : n.Text t) : Shows t False := by
  cases h with
  | whole hds => exact (sign _).prepend (of_plain (plain_digits hds.1.2))
  | decimal hwhole hfraction hexponent _ =>
      exact (((sign _).prepend (of_plain (plain_digits hwhole.1.2))).prepend
        (fraction hfraction)).prepend (exponent hexponent)

theorem blank {w : List Char} (hw : Blank w) : Shows w False := by
  refine of_plain fun c hc => ?_
  rcases hw c hc with rfl | rfl | rfl | rfl <;> decide

theorem cons {c : Char} {P : Prop} (hc : c ≠ '\x22' ∧ c ≠ 'N' ∧ c ≠ 'I') (h : Shows t P) :
    Shows (c :: t) P :=
  (of_plain (plain_cons hc (List.forall_mem_nil _))).prepend h

theorem between {c d : Char} {P : Prop} (hc : c ≠ '\x22' ∧ c ≠ 'N' ∧ c ≠ 'I')
    (hd : d ≠ '\x22' ∧ d ≠ 'N' ∧ d ≠ 'I') (h : Shows t P) : Shows (c :: t ++ [d]) P :=
  cons hc (h.extend (of_plain (plain_cons hd (List.forall_mem_nil _))))

end Shows

namespace Tree

mutual

theorem Text.shows {s : Tree} {t : List Char} (h : s.Text t) : Shows t False := by
  match h with
  | .null => exact .of_plain (List.forall_iff_forall_mem.mp (by decide))
  | .true => exact .of_plain (List.forall_iff_forall_mem.mp (by decide))
  | .false => exact .of_plain (List.forall_iff_forall_mem.mp (by decide))
  | .number hn => exact .numeral hn
  | .text hq => exact .quoted hq
  | .emptyList hw => exact .between (by decide) (by decide) (.blank hw)
  | .list hitems => exact .between (by decide) (by decide) hitems.shows
  | .emptyObject hw => exact .between (by decide) (by decide) (.blank hw)
  | .object hmembers => exact .between (by decide) (by decide) hmembers.shows

theorem Padded.shows {s : Tree} {t : List Char} (h : s.Padded t) : Shows t False := by
  match h with
  | .around hw hs hw' => exact ((Shows.blank hw).prepend hs.shows).prepend (.blank hw')

theorem Items.shows {ss : List Tree} {t : List Char} (h : Items ss t) : Shows t False := by
  match h with
  | .one hs => exact hs.shows
  | .more hs hss => exact hs.shows.prepend (.cons (by decide) hss.shows)

theorem Members.shows {ms : List (List Glyph × Tree)} {t : List Char} (h : Members ms t) :
    Shows t False := by
  match h with
  | .one hw hn hw' hs =>
      exact (((Shows.blank hw).prepend (.quoted hn)).prepend (.blank hw')).prepend
        (.cons (by decide) hs.shows)
  | .more hw hn hw' hs hms =>
      exact ((((Shows.blank hw).prepend (.quoted hn)).prepend (.blank hw')).prepend
        (.cons (by decide) hs.shows)).prepend (.cons (by decide) hms.shows)

end

end Tree

namespace Printer

variable (charset : Charset)

theorem shows_string (s : String) : Shows (string charset s) False := by
  obtain ⟨gs, hgs, -⟩ := Glyph.exists_of_string (stringText_string charset s)
  exact .quoted hgs

theorem shows_float (f : Float) :
    Shows (Shortest.text words f).toList (¬ Binary64.isFinite f = true) := by
  by_cases hfinite : Binary64.isFinite f = true
  · obtain ⟨n, hn, -⟩ := Numeral.exists_of_float (floatText_text hfinite)
    exact (Shows.numeral hn).congr (by simp [hfinite])
  · have hword {s : String} (h : ∀ b, ofText ⟨.outside, b⟩ s.toList = ⟨.outside, true⟩) :
        Shows s.toList (¬ Binary64.isFinite f = true) :=
      (Shows.of_foreign h).congr (by simp [hfinite])
    rw [Shortest.text]
    split
    · rename_i hparts
      exact absurd (Binary64.isFinite_iff.mpr ⟨_, _, _, hparts⟩) hfinite
    · split
      · exact hword fun b => by cases b <;> rfl
      · exact hword fun b => by cases b <;> rfl
    · exact hword fun b => by cases b <;> rfl

theorem shows_comma (first : Bool) : Shows (if first then [] else [',']) False := by
  cases first with
  | true => exact .of_plain (List.forall_mem_nil _)
  | false => exact .cons (by decide) (.of_plain (List.forall_mem_nil _))

mutual

theorem shows_compact (v : Value) (hbytes : v.holdsBytes = false) :
    Shows (compact charset v) (¬ v.AllFloats (Binary64.isFinite ·)) := by
  have hquiet {t : List Char} (h : Shows t False) : Shows t (¬ True) := h.congr (by simp)
  cases v with
  | null => exact hquiet Tree.Text.null.shows
  | bool b =>
      cases b with
      | true => exact hquiet Tree.Text.true.shows
      | false => exact hquiet Tree.Text.false.shows
  | int n =>
      obtain ⟨m, hm, -⟩ := Numeral.exists_of_int (intText_int n)
      exact hquiet (.numeral hm)
  | float f => exact shows_float f
  | text s => exact hquiet (shows_string charset s)
  | bytes bs => cases hbytes
  | list items => exact .between (by decide) (by decide) (shows_compactItems true items hbytes)
  | object members =>
      exact .between (by decide) (by decide) (shows_compactMembers true members hbytes)

theorem shows_compactItems (first : Bool) (vs : List Value)
    (hbytes : Value.itemsHoldBytes vs = false) :
    Shows (compactItems charset first vs)
      (¬ Value.ItemsAllFloats (Binary64.isFinite ·) vs) := by
  cases vs with
  | nil => exact (Shows.of_plain (List.forall_mem_nil _)).congr (by simp [Value.ItemsAllFloats])
  | cons v vs =>
      obtain ⟨hv, hvs⟩ := Bool.or_eq_false_iff.mp hbytes
      rw [Value.ItemsAllFloats, Classical.not_and_iff_not_or_not]
      exact ((shows_comma first).prepend (shows_compact v hv)).append
        (shows_compactItems false vs hvs)

theorem shows_compactMembers (first : Bool) (ms : List (String × Value))
    (hbytes : Value.membersHoldBytes ms = false) :
    Shows (compactMembers charset first ms)
      (¬ Value.MembersAllFloats (Binary64.isFinite ·) ms) := by
  cases ms with
  | nil => exact (Shows.of_plain (List.forall_mem_nil _)).congr (by simp [Value.MembersAllFloats])
  | cons m ms =>
      obtain ⟨hv, hvs⟩ := Bool.or_eq_false_iff.mp hbytes
      rw [Value.MembersAllFloats, Classical.not_and_iff_not_or_not, compactMembers,
        List.append_assoc]
      exact ((shows_comma first).prepend (shows_string charset m.1)).prepend
        (.cons (by decide) ((shows_compact m.2 hv).append (shows_compactMembers false ms hvs)))

end

end Printer

namespace Value

/-- What is printed for a value is JSON exactly if all floating-point numbers in it are finite. -/
theorem wellFormed_compactBytes_iff (charset : Charset) {v : Value} (hbytes : v.holdsBytes = false) :
    WellFormed (v.compactBytes charset) ↔ v.AllFloats (Binary64.isFinite ·) := by
  constructor
  · rintro ⟨s, t, hs, ht⟩
    have htext : t = Printer.compact charset v := by
      have hdecode := congrArg Text.Utf8.decode? ht
      rw [compactBytes, Text.Utf8.decode?_encode, Text.Utf8.decode?_encode] at hdecode
      exact Option.some.inj hdecode
    subst htext
    obtain ⟨b, hb, hquiet⟩ := hs.shows false
    obtain ⟨b', hb', hforeign⟩ := Printer.shows_compact charset v hbytes false
    obtain rfl : b = b' := congrArg Hearing.foreign (hb.symm.trans hb')
    by_contra hfloats
    have hclear : b ≠ true := fun htrue => by simpa using hquiet.mp htrue
    exact hclear (hforeign.mpr (.inr hfloats))
  · intro hfloats
    obtain ⟨s, hs, -⟩ := Tree.exists_of_padded
      (.bare (Printer.valueText_finite charset v hbytes hfloats))
    exact ⟨s, _, hs, rfl⟩

end Value

end SpanStore.Json
