import SpanStore.Proofs.Json.NumberLexing
import SpanStore.Proofs.Json.Spelling

namespace SpanStore.Json

open Grammar

theorem EndsIn.unique {t : List Char} {v w : Option Value} (hv : EndsIn t v) (hw : EndsIn t w) :
    v = w := by
  obtain ⟨m, hm, rfl, -⟩ := hv
  obtain ⟨n, hn, rfl, -⟩ := hw
  have hstates := (hm .start).symm.trans (hn .start)
  simp only [Reader.mk.injEq, Lexeme.number.injEq, true_and, and_true] at hstates
  rw [hstates]

theorem Numeral.Text.value?_unique {a b : Numeral} {t : List Char} (ha : a.Text t)
    (hb : b.Text t) : a.value? = b.value? :=
  (EndsIn.numeral ha).unique (EndsIn.numeral hb)

namespace Grammar

/-- Two fronts of one text whose characters all have the property are the same if none of them can
be longer. -/
theorem front_unique {p : Char → Prop} {t u r q : List Char} (ht : ∀ c ∈ t, p c)
    (hu : ∀ c ∈ u, p c) (hr : ∀ c ∈ r.head?, ¬ p c) (hq : ∀ c ∈ q.head?, ¬ p c)
    (h : t ++ r = u ++ q) : t = u ∧ r = q := by
  induction t generalizing u with
  | nil =>
      cases u with
      | nil => exact ⟨rfl, h⟩
      | cons d ds =>
          obtain rfl : r = d :: (ds ++ q) := h
          exact absurd (hu d List.mem_cons_self) (hr d rfl)
  | cons c cs ih =>
      obtain ⟨hc, hcs⟩ := List.forall_mem_cons.mp ht
      cases u with
      | nil =>
          obtain rfl : c :: (cs ++ r) = q := h
          exact absurd hc (hq c rfl)
      | cons d ds =>
          obtain ⟨rfl, hrest⟩ := List.cons_eq_cons.mp h
          obtain ⟨rfl, hrq⟩ := ih hcs (List.forall_mem_cons.mp hu).2 hrest
          exact ⟨rfl, hrq⟩

section Strings

variable {m n : Nat} {c d : Char} {s s' t u r q : List Char}

theorem UnitText.front_unique (hm : UnitText m t) (hn : UnitText n u) (h : t ++ r = u ++ q) :
    m = n ∧ r = q := by
  cases hm with
  | digits ha hb hc hd =>
      cases hn with
      | digits ha' hb' hc' hd' =>
          simp only [List.cons_append, List.nil_append, List.cons.injEq] at h
          obtain ⟨rfl, rfl, rfl, rfl, hrest⟩ := h
          rw [ha] at ha'
          rw [hb] at hb'
          rw [hc] at hc'
          rw [hd] at hd'
          cases ha'
          cases hb'
          cases hc'
          cases hd'
          exact ⟨rfl, hrest⟩

theorem letterEscapes_unique : ∀ p ∈ letterEscapes, ∀ p' ∈ letterEscapes,
    p.1 = p'.1 → p.2 = p'.2 := by decide

theorem letterEscapes_ne_unit : ∀ p ∈ letterEscapes, p.1 ≠ 'u' := by decide

theorem UnitText.not_high {high : Nat} (hunit : UnitText c.toNat t)
    (hhigh : UnitText (0xD800 + high) u) (hbound : high < 0x400) : t ++ r ≠ u ++ q := by
  intro h
  have hvalue := (hunit.front_unique hhigh h).1
  have hvalid := Text.Utf8.toNat_lt_or_lt c
  omega

theorem CharText.front_unique (hc : CharText c t) (hd : CharText d u) (h : t ++ r = u ++ q) :
    c = d ∧ r = q := by
  cases hc with
  | plain hcontrol hquote hescape =>
      cases hd with
      | plain => exact List.cons_eq_cons.mp h
      | _ => exact absurd (List.cons_eq_cons.mp h).1 hescape
  | letter hletter =>
      cases hd with
      | plain hcontrol hquote hescape => exact absurd (List.cons_eq_cons.mp h).1.symm hescape
      | letter hletter' =>
          simp only [List.cons_append, List.nil_append, List.cons.injEq, true_and] at h
          exact ⟨letterEscapes_unique _ hletter _ hletter' h.1, h.2⟩
      | _ =>
          simp only [List.cons_append, List.cons.injEq, true_and] at h
          exact absurd h.1 (letterEscapes_ne_unit _ hletter)
  | unit hunit =>
      cases hd with
      | plain hcontrol hquote hescape => exact absurd (List.cons_eq_cons.mp h).1.symm hescape
      | letter hletter =>
          simp only [List.cons_append, List.cons.injEq, true_and] at h
          exact absurd h.1.symm (letterEscapes_ne_unit _ hletter)
      | unit hunit' =>
          simp only [List.cons_append, List.cons.injEq, true_and] at h
          obtain ⟨hvalue, hrest⟩ := hunit.front_unique hunit' h
          exact ⟨Char.toNat_inj.mp hvalue, hrest⟩
      | pair hhigh hlow hhighBound =>
          simp only [List.cons_append, List.append_assoc, List.cons.injEq, true_and] at h
          exact absurd h (hunit.not_high hhigh hhighBound)
  | pair hhigh hlow hhighBound hlowBound hvalue =>
      cases hd with
      | plain hcontrol hquote hescape => exact absurd (List.cons_eq_cons.mp h).1.symm hescape
      | letter hletter =>
          simp only [List.cons_append, List.cons.injEq, true_and] at h
          exact absurd h.1.symm (letterEscapes_ne_unit _ hletter)
      | unit hunit =>
          simp only [List.cons_append, List.append_assoc, List.cons.injEq, true_and] at h
          exact absurd h.symm (hunit.not_high hhigh hhighBound)
      | pair hhigh' hlow' hhighBound' hlowBound' hvalue' =>
          simp only [List.cons_append, List.append_assoc, List.cons.injEq, true_and] at h
          obtain ⟨hhighs, hrest⟩ := hhigh.front_unique hhigh' h
          simp only [List.cons.injEq, true_and] at hrest
          obtain ⟨hlows, hrest⟩ := hlow.front_unique hlow' hrest
          exact ⟨Char.toNat_inj.mp (by omega), hrest⟩

theorem CharText.ne_quote (h : CharText c t) : t ++ r ≠ '\x22' :: q := by
  intro heq
  cases h with
  | plain hcontrol hquote hescape => exact hquote (List.cons_eq_cons.mp heq).1
  | _ => exact absurd (List.cons_eq_cons.mp heq).1 (by decide)

theorem ContentText.front_unique (hs : ContentText s t) (hs' : ContentText s' u)
    (h : t ++ '\x22' :: r = u ++ '\x22' :: q) : s = s' ∧ r = q := by
  induction hs generalizing s' u with
  | nil =>
      cases hs' with
      | nil => exact ⟨rfl, (List.cons_eq_cons.mp h).2⟩
      | cons hd hds =>
          rw [List.append_assoc] at h
          exact absurd h.symm hd.ne_quote
  | cons hc hcs ih =>
      rw [List.append_assoc] at h
      cases hs' with
      | nil => exact absurd h hc.ne_quote
      | cons hd hds =>
          rw [List.append_assoc] at h
          obtain ⟨rfl, hrest⟩ := hc.front_unique hd h
          obtain ⟨rfl, hrq⟩ := ih hds hrest
          exact ⟨rfl, hrq⟩

theorem StringText.front_unique {x y : String} (hx : StringText x t) (hy : StringText y u)
    (h : t ++ r = u ++ q) : x = y ∧ r = q := by
  cases hx with
  | quoted hs =>
      cases hy with
      | quoted hs' =>
          simp only [List.cons_append, List.append_assoc, List.nil_append, List.cons.injEq,
            true_and] at h
          obtain ⟨hchars, hrest⟩ := hs.front_unique hs' h
          exact ⟨String.toList_inj.mp hchars, hrest⟩

end Strings

section Numbers

variable {m n : Int} {f g : Float} {t u r q : List Char}

def Numeric (c : Char) : Prop :=
  '0' ≤ c ∧ c ≤ '9' ∨ c = '-' ∨ c = '+' ∨ c = '.' ∨ c = 'e' ∨ c = 'E'

theorem Digits.numeric (h : Digits t) : ∀ c ∈ t, Numeric c := fun c hc => .inl (h.2 c hc)

theorem numeric_signText (negative : Bool) : ∀ c ∈ signText negative, Numeric c := by
  cases negative with
  | false => exact List.forall_mem_nil _
  | true => exact List.forall_mem_singleton.mpr (.inr (.inl rfl))

theorem FractionText.numeric {ds : List Char} (h : FractionText ds t) : ∀ c ∈ t, Numeric c := by
  cases h with
  | none => exact List.forall_mem_nil _
  | some hds =>
      rw [List.forall_mem_cons]
      exact ⟨.inr (.inr (.inr (.inl rfl))), hds.numeric⟩

theorem ExponentText.numeric (h : ExponentText n t) : ∀ c ∈ t, Numeric c := by
  have hmark {c : Char} (hc : c = 'e' ∨ c = 'E') : Numeric c := .inr (.inr (.inr (.inr hc)))
  cases h with
  | none => exact List.forall_mem_nil _
  | plain hm hds =>
      rw [List.forall_mem_cons]
      exact ⟨hmark hm, hds.numeric⟩
  | plus hm hds =>
      rw [List.forall_mem_cons, List.forall_mem_cons]
      exact ⟨hmark hm, .inr (.inr (.inl rfl)), hds.numeric⟩
  | minus hm hds =>
      rw [List.forall_mem_cons, List.forall_mem_cons]
      exact ⟨hmark hm, .inr (.inl rfl), hds.numeric⟩

theorem IntText.numeric (h : IntText n t) : ∀ c ∈ t, Numeric c := by
  cases h with
  | positive hds => exact hds.1.numeric
  | negative hds =>
      rw [List.forall_mem_cons]
      exact ⟨.inr (.inl rfl), hds.1.numeric⟩

theorem FloatText.numeric (h : FloatText f t) : ∀ c ∈ t, Numeric c := by
  cases h with
  | @nearest negative _ _ _ _ _ _ hwhole hfraction hexponent =>
      simp only [List.forall_mem_append]
      exact ⟨⟨⟨numeric_signText negative, hwhole.1.numeric⟩, hfraction.numeric⟩,
        hexponent.numeric⟩

theorem IntText.unique (hm : IntText m t) (hn : IntText n t) : m = n := by
  have hminus {ds : List Char} : ¬ Whole ('-' :: ds) := fun h =>
    absurd (h.1.2 '-' List.mem_cons_self).1 (by decide)
  cases hm with
  | positive hds =>
      cases hn with
      | positive => rfl
      | negative => exact absurd hds hminus
  | negative hds =>
      cases hn with
      | positive hds' => exact absurd hds' hminus
      | negative => rfl

theorem FloatText.unique (hf : FloatText f t) (hg : FloatText g t) : f = g := by
  obtain ⟨a, ha, hfvalue⟩ := Numeral.exists_of_float hf
  obtain ⟨b, hb, hgvalue⟩ := Numeral.exists_of_float hg
  have hvalues := ha.value?_unique hb
  rw [hfvalue, hgvalue] at hvalues
  cases hvalues
  rfl

theorem FloatText.not_int (hf : FloatText f t) : ¬ IntText n t := by
  intro hn
  obtain ⟨a, ha, hfvalue⟩ := Numeral.exists_of_float hf
  obtain ⟨b, hb, hnvalue⟩ := Numeral.exists_of_int hn
  have hvalues := ha.value?_unique hb
  rw [hfvalue] at hvalues
  cases ((hnvalue _).mp hvalues.symm).2

end Numbers

inductive Shape where
  | null
  | true
  | false
  | number
  | text
  | list
  | object

def Shape.ofValue? : Value → Option Shape
  | .null => some .null
  | .bool Bool.true => some .true
  | .bool Bool.false => some .false
  | .int _ | .float _ => some .number
  | .text _ => some .text
  | .bytes _ => none
  | .list _ => some .list
  | .object _ => some .object

def Shape.ofChar? (c : Char) : Option Shape :=
  if '0' ≤ c ∧ c ≤ '9' then some .number
  else
    match c with
    | '-' => some .number
    | 'n' => some .null
    | 't' => some .true
    | 'f' => some .false
    | '\x22' => some .text
    | '[' => some .list
    | '\x7b' => some .object
    | _ => none

def Begins (shape : Option Shape) (t : List Char) : Prop :=
  shape ≠ none ∧ ∃ c rest, t = c :: rest ∧ Shape.ofChar? c = shape

section Begins

variable {n : Int} {f : Float} {s s' : Option Shape} {v : Value} {t u r q : List Char}

theorem Begins.append (h : Begins s t) (r : List Char) : Begins s (t ++ r) := by
  obtain ⟨hs, c, rest, rfl, hc⟩ := h
  exact ⟨hs, c, rest ++ r, rfl, hc⟩

theorem Begins.unique (h : Begins s t) (h' : Begins s' t) : s = s' := by
  obtain ⟨-, c, rest, rfl, hc⟩ := h
  obtain ⟨-, d, rest', heq, hd⟩ := h'
  obtain ⟨rfl, -⟩ := List.cons_eq_cons.mp heq
  exact hc.symm.trans hd

theorem begins_cons {c : Char} {shape : Shape} (h : Shape.ofChar? c = some shape)
    (rest : List Char) : Begins (some shape) (c :: rest) := ⟨nofun, c, rest, rfl, h⟩

theorem Whole.begins (h : Whole t) : Begins (some .number) t := by
  obtain ⟨c, cs, rfl, hc, -⟩ := NumberState.digit_cases h.1
  exact begins_cons (if_pos hc) cs

theorem begins_signed (negative : Bool) (h : Whole t) :
    Begins (some .number) (signText negative ++ t) := by
  cases negative with
  | false => exact h.begins
  | true => exact begins_cons rfl t

theorem IntText.begins (h : IntText n t) : Begins (some .number) t := by
  cases h with
  | positive hds => exact hds.begins
  | negative hds => exact begins_cons rfl _

theorem FloatText.begins (h : FloatText f t) : Begins (some .number) t := by
  cases h with
  | @nearest negative _ _ _ _ _ _ hwhole =>
      exact ((begins_signed negative hwhole).append _).append _

theorem ValueText.begins (h : ValueText v t) : Begins (Shape.ofValue? v) t := by
  cases h with
  | int hn => exact hn.begins
  | float hf => exact hf.begins
  | text hs =>
      cases hs with
      | quoted => exact begins_cons rfl _
  | _ => exact begins_cons rfl _

end Begins

def Bare (t : List Char) : Prop := ∀ c ∈ t.head?, ¬ (c = ' ' ∨ c = '\t' ∨ c = '\n' ∨ c = '\r')

def Follows (t : List Char) : Prop := ∀ c ∈ t.head?, ¬ Numeric c

def Closes (t : List Char) : Prop := ∀ c ∈ t.head?, c = ',' ∨ c = ']' ∨ c = '\x7d'

section Fronts

variable {s : Option Shape} {name name' : String} {n n' w w' x x' t u r q : List Char}

theorem Begins.bare (h : Begins s t) : Bare t := by
  obtain ⟨hs, c, rest, rfl, hc⟩ := h
  intro d hd hblank
  obtain rfl : c = d := by simpa using hd
  apply hs
  rw [← hc]
  rcases hblank with rfl | rfl | rfl | rfl <;> decide

theorem Closes.bare (h : Closes t) : Bare t := by
  intro c hc
  rcases h c hc with rfl | rfl | rfl <;> decide

theorem Closes.follows (h : Closes r) (hw : Blank w) : Follows (w ++ r) := by
  cases w with
  | nil =>
      intro c hc
      rcases h c hc with rfl | rfl | rfl <;> (unfold Numeric; decide)
  | cons d ds =>
      intro c hc
      obtain rfl : d = c := by simpa using hc
      rcases hw d List.mem_cons_self with rfl | rfl | rfl | rfl <;> (unfold Numeric; decide)

theorem Blank.front_unique (hw : Blank w) (hw' : Blank w') (hr : Bare r) (hq : Bare q)
    (h : w ++ r = w' ++ q) : r = q :=
  (Grammar.front_unique hw hw' hr hq h).2

theorem StringText.begins (h : StringText name t) : Begins (some .text) t := by
  cases h with
  | quoted => exact begins_cons rfl _

theorem name_front_unique (hw : Blank w) (hn : StringText name n) (hx : Blank x)
    (hw' : Blank w') (hn' : StringText name' n') (hx' : Blank x')
    (h : w ++ (n ++ (x ++ ':' :: r)) = w' ++ (n' ++ (x' ++ ':' :: q))) :
    name = name' ∧ r = q := by
  have hnames := hw.front_unique hw' (hn.begins.append _).bare (hn'.begins.append _).bare h
  obtain ⟨rfl, hrest⟩ := hn.front_unique hn' hnames
  have hbare (t : List Char) : Bare (':' :: t) := by
    intro c hc
    obtain rfl : ':' = c := by simpa using hc
    decide
  exact ⟨rfl, (List.cons_eq_cons.mp (hx.front_unique hx' (hbare r) (hbare q) hrest)).2⟩

def BeginsAfter (shape : Option Shape) (t : List Char) : Prop :=
  ∃ w rest, Blank w ∧ Begins shape rest ∧ t = w ++ rest

theorem PaddedText.begins {v : Value} (h : PaddedText v t) :
    BeginsAfter (Shape.ofValue? v) t := by
  cases h with
  | @around _ w t w' hw hv hw' => exact ⟨w, t ++ w', hw, hv.begins.append w', by simp⟩

theorem BeginsAfter.append (h : BeginsAfter s t) (r : List Char) : BeginsAfter s (t ++ r) := by
  obtain ⟨w, rest, hw, hrest, rfl⟩ := h
  exact ⟨w, rest ++ r, hw, hrest.append r, by simp⟩

theorem ItemsText.begins {vs : List Value} (h : ItemsText vs t) : ∃ s, BeginsAfter s t := by
  cases h with
  | one hv => exact ⟨_, hv.begins⟩
  | more hv => exact ⟨_, hv.begins.append _⟩

theorem MembersText.begins {ms : List (String × Value)} (h : MembersText ms t) :
    BeginsAfter (some .text) t := by
  cases h with
  | @one _ _ w n w' t hw hn =>
      exact ⟨w, n ++ (w' ++ ':' :: t), hw, hn.begins.append _, by simp⟩
  | @more _ _ _ w n w' t ts hw hn =>
      exact ⟨w, n ++ (w' ++ ':' :: t ++ ',' :: ts), hw, hn.begins.append _, by simp⟩

theorem Closes.close (r : List Char) : Closes (']' :: r) := by simp [Closes]

theorem Closes.comma (r : List Char) : Closes (',' :: r) := by simp [Closes]

theorem Closes.closeObject (r : List Char) : Closes ('\x7d' :: r) := by simp [Closes]

theorem bare_closed {c : Char} (hc : c = ']' ∨ c = '\x7d') (r : List Char) : Bare (c :: r) := by
  rcases hc with rfl | rfl
  · exact (Closes.close r).bare
  · exact (Closes.closeObject r).bare

theorem Blank.closed_unique (hw : Blank w) (hw' : Blank w') {c : Char}
    (hc : c = ']' ∨ c = '\x7d') (h : w ++ c :: r = w' ++ c :: q) : r = q :=
  (List.cons_eq_cons.mp (hw.front_unique hw' (bare_closed hc r) (bare_closed hc q) h)).2

theorem BeginsAfter.ne_closed (h : BeginsAfter s t) (hw : Blank w) {c : Char}
    (hc : c = ']' ∨ c = '\x7d') : w ++ c :: r ≠ t ++ q := by
  intro heq
  obtain ⟨w', rest, hw', hrest, rfl⟩ := h
  rw [List.append_assoc] at heq
  have hclose := hw.front_unique hw' (bare_closed hc r) (hrest.append q).bare heq
  obtain ⟨hs, d, ds, hd, hshape⟩ := hrest.append q
  obtain ⟨rfl, -⟩ := List.cons_eq_cons.mp (hclose.trans hd)
  apply hs
  rw [← hshape]
  rcases hc with rfl | rfl <;> rfl

end Fronts

/-- At the front of a longer text the value is read as itself, up to the end of its text. -/
def ValueFront (v : Value) (t : List Char) : Prop :=
  ∀ ⦃v' u r q⦄, ValueText v' u → Follows r → Follows q → t ++ r = u ++ q → v = v' ∧ r = q

def PaddedFront (v : Value) (t : List Char) : Prop :=
  ∀ ⦃v' u r q⦄, PaddedText v' u → Closes r → Closes q → t ++ r = u ++ q → v = v' ∧ r = q

def ItemsFront (vs : List Value) (t : List Char) : Prop :=
  ∀ ⦃vs' u r q⦄, ItemsText vs' u → t ++ ']' :: r = u ++ ']' :: q → vs = vs' ∧ r = q

def MembersFront (ms : List (String × Value)) (t : List Char) : Prop :=
  ∀ ⦃ms' u r q⦄, MembersText ms' u → t ++ '\x7d' :: r = u ++ '\x7d' :: q → ms = ms' ∧ r = q

section Scalars

variable {n : Int} {f : Float} {x : String} {v v' : Value} {t u r q : List Char}

theorem ValueText.shape_eq (hv : ValueText v t) (hv' : ValueText v' u) (h : t ++ r = u ++ q) :
    Shape.ofValue? v = Shape.ofValue? v' := by
  have hbegins := hv.begins.append r
  rw [h] at hbegins
  exact hbegins.unique (hv'.begins.append q)

theorem null_front : ValueFront .null ['n', 'u', 'l', 'l'] := by
  intro v' u r q hv' _ _ h
  have hshape := ValueText.null.shape_eq hv' h
  cases hv' with
  | null => exact ⟨rfl, List.append_cancel_left h⟩
  | _ => cases hshape

theorem true_front : ValueFront (.bool true) ['t', 'r', 'u', 'e'] := by
  intro v' u r q hv' _ _ h
  have hshape := ValueText.true.shape_eq hv' h
  cases hv' with
  | true => exact ⟨rfl, List.append_cancel_left h⟩
  | _ => cases hshape

theorem false_front : ValueFront (.bool false) ['f', 'a', 'l', 's', 'e'] := by
  intro v' u r q hv' _ _ h
  have hshape := ValueText.false.shape_eq hv' h
  cases hv' with
  | false => exact ⟨rfl, List.append_cancel_left h⟩
  | _ => cases hshape

theorem IntText.front (hn : IntText n t) : ValueFront (.int n) t := by
  intro v' u r q hv' hr hq h
  have hshape := (ValueText.int hn).shape_eq hv' h
  cases hv' with
  | int hn' =>
      obtain ⟨rfl, hrest⟩ := front_unique hn.numeric hn'.numeric hr hq h
      exact ⟨congrArg Value.int (hn.unique hn'), hrest⟩
  | float hf =>
      obtain ⟨rfl, -⟩ := front_unique hn.numeric hf.numeric hr hq h
      exact absurd hn hf.not_int
  | _ => cases hshape

theorem FloatText.front (hf : FloatText f t) : ValueFront (.float f) t := by
  intro v' u r q hv' hr hq h
  have hshape := (ValueText.float hf).shape_eq hv' h
  cases hv' with
  | int hn =>
      obtain ⟨rfl, -⟩ := front_unique hf.numeric hn.numeric hr hq h
      exact absurd hn hf.not_int
  | float hf' =>
      obtain ⟨rfl, hrest⟩ := front_unique hf.numeric hf'.numeric hr hq h
      exact ⟨congrArg Value.float (hf.unique hf'), hrest⟩
  | _ => cases hshape

theorem StringText.front (hx : StringText x t) : ValueFront (.text x) t := by
  intro v' u r q hv' _ _ h
  have hshape := (ValueText.text hx).shape_eq hv' h
  cases hv' with
  | text hx' =>
      obtain ⟨rfl, hrest⟩ := hx.front_unique hx' h
      exact ⟨rfl, hrest⟩
  | _ => cases hshape

end Scalars

section Parts

variable {v : Value} {vs : List Value} {name : String} {ms : List (String × Value)}
  {w x n t ts : List Char}

theorem inside_eq {opening closing : Char} {t u r q : List Char}
    (h : opening :: t ++ [closing] ++ r = opening :: u ++ [closing] ++ q) :
    t ++ closing :: r = u ++ closing :: q := by
  simpa using h

theorem emptyList_front (hw : Blank w) : ValueFront (.list []) ('[' :: w ++ [']']) := by
  intro v' u r q hv' _ _ h
  have hshape := (ValueText.emptyList hw).shape_eq hv' h
  cases hv' with
  | emptyList hw' => exact ⟨rfl, hw.closed_unique hw' (.inl rfl) (inside_eq h)⟩
  | list hvs =>
      obtain ⟨s, hbegins⟩ := hvs.begins
      exact absurd (inside_eq h) (hbegins.ne_closed hw (.inl rfl))
  | _ => cases hshape

theorem ItemsFront.list (h : ItemsFront vs t) (hvs : ItemsText vs t) :
    ValueFront (.list vs) ('[' :: t ++ [']']) := by
  intro v' u r q hv' _ _ heq
  have hshape := (ValueText.list hvs).shape_eq hv' heq
  cases hv' with
  | emptyList hw =>
      obtain ⟨s, hbegins⟩ := hvs.begins
      exact absurd (inside_eq heq).symm (hbegins.ne_closed hw (.inl rfl))
  | list hvs' =>
      obtain ⟨rfl, hrest⟩ := h hvs' (inside_eq heq)
      exact ⟨rfl, hrest⟩
  | _ => cases hshape

theorem emptyObject_front (hw : Blank w) :
    ValueFront (.object []) ('\x7b' :: w ++ ['\x7d']) := by
  intro v' u r q hv' _ _ h
  have hshape := (ValueText.emptyObject hw).shape_eq hv' h
  cases hv' with
  | emptyObject hw' => exact ⟨rfl, hw.closed_unique hw' (.inr rfl) (inside_eq h)⟩
  | object hms => exact absurd (inside_eq h) (hms.begins.ne_closed hw (.inr rfl))
  | _ => cases hshape

theorem MembersFront.object (h : MembersFront ms t) (hms : MembersText ms t) :
    ValueFront (.object ms) ('\x7b' :: t ++ ['\x7d']) := by
  intro v' u r q hv' _ _ heq
  have hshape := (ValueText.object hms).shape_eq hv' heq
  cases hv' with
  | emptyObject hw => exact absurd (inside_eq heq).symm (hms.begins.ne_closed hw (.inr rfl))
  | object hms' =>
      obtain ⟨rfl, hrest⟩ := h hms' (inside_eq heq)
      exact ⟨rfl, hrest⟩
  | _ => cases hshape

theorem ValueFront.around (h : ValueFront v t) (hv : ValueText v t) (hw : Blank w)
    (hx : Blank x) : PaddedFront v (w ++ t ++ x) := by
  intro v' u r q hv' hr hq heq
  cases hv' with
  | around hw' hv' hx' =>
      simp only [List.append_assoc] at heq
      have hvalues := hw.front_unique hw' (hv.begins.append _).bare (hv'.begins.append _).bare heq
      obtain ⟨rfl, hrest⟩ := h hv' (hr.follows hx) (hq.follows hx') hvalues
      exact ⟨rfl, hx.front_unique hx' hr.bare hq.bare hrest⟩

theorem PaddedFront.one (h : PaddedFront v t) : ItemsFront [v] t := by
  intro vs' u r q hvs' heq
  cases hvs' with
  | one hv' =>
      obtain ⟨rfl, hrest⟩ := h hv' (.close r) (.close q) heq
      exact ⟨rfl, (List.cons_eq_cons.mp hrest).2⟩
  | more hv' hvs' =>
      rw [List.append_assoc] at heq
      obtain ⟨-, hrest⟩ := h hv' (.close r) (.comma _) heq
      cases hrest

theorem PaddedFront.more (h : PaddedFront v t) (hs : ItemsFront vs ts) :
    ItemsFront (v :: vs) (t ++ ',' :: ts) := by
  intro vs' u r q hvs' heq
  rw [List.append_assoc] at heq
  cases hvs' with
  | one hv' =>
      obtain ⟨-, hrest⟩ := h hv' (.comma _) (.close q) heq
      cases hrest
  | more hv' hvs' =>
      rw [List.append_assoc] at heq
      obtain ⟨rfl, hmore⟩ := h hv' (.comma _) (.comma _) heq
      obtain ⟨rfl, hrest⟩ := hs hvs' (List.cons_eq_cons.mp hmore).2
      exact ⟨rfl, hrest⟩

theorem PaddedFront.oneMember (h : PaddedFront v t) (hw : Blank w) (hn : StringText name n)
    (hx : Blank x) : MembersFront [(name, v)] (w ++ n ++ x ++ ':' :: t) := by
  intro ms' u r q hms' heq
  cases hms' with
  | one hw' hn' hx' hv' =>
      simp only [List.append_assoc, List.cons_append] at heq
      obtain ⟨rfl, hvalues⟩ := name_front_unique hw hn hx hw' hn' hx' heq
      obtain ⟨rfl, hrest⟩ := h hv' (.closeObject r) (.closeObject q) hvalues
      exact ⟨rfl, (List.cons_eq_cons.mp hrest).2⟩
  | more hw' hn' hx' hv' hms' =>
      simp only [List.append_assoc, List.cons_append] at heq
      obtain ⟨rfl, hvalues⟩ := name_front_unique hw hn hx hw' hn' hx' heq
      obtain ⟨-, hrest⟩ := h hv' (.closeObject r) (.comma _) hvalues
      cases hrest

theorem PaddedFront.moreMembers (h : PaddedFront v t) (hw : Blank w) (hn : StringText name n)
    (hx : Blank x) (hs : MembersFront ms ts) :
    MembersFront ((name, v) :: ms) (w ++ n ++ x ++ ':' :: t ++ ',' :: ts) := by
  intro ms' u r q hms' heq
  cases hms' with
  | one hw' hn' hx' hv' =>
      simp only [List.append_assoc, List.cons_append] at heq
      obtain ⟨rfl, hvalues⟩ := name_front_unique hw hn hx hw' hn' hx' heq
      obtain ⟨-, hrest⟩ := h hv' (.comma _) (.closeObject q) hvalues
      cases hrest
  | more hw' hn' hx' hv' hms' =>
      simp only [List.append_assoc, List.cons_append] at heq
      obtain ⟨rfl, hvalues⟩ := name_front_unique hw hn hx hw' hn' hx' heq
      obtain ⟨rfl, hmore⟩ := h hv' (.comma _) (.comma _) hvalues
      obtain ⟨rfl, hrest⟩ := hs hms' (List.cons_eq_cons.mp hmore).2
      exact ⟨rfl, hrest⟩

end Parts

mutual

theorem ValueText.front {v : Value} {t : List Char} (h : ValueText v t) : ValueFront v t := by
  match h with
  | .null => exact null_front
  | .true => exact true_front
  | .false => exact false_front
  | .int hn => exact hn.front
  | .float hf => exact hf.front
  | .text hs => exact hs.front
  | .emptyList hw => exact emptyList_front hw
  | .list hvs => exact (ItemsText.front hvs).list hvs
  | .emptyObject hw => exact emptyObject_front hw
  | .object hms => exact (MembersText.front hms).object hms

theorem PaddedText.front {v : Value} {t : List Char} (h : PaddedText v t) : PaddedFront v t := by
  match h with
  | .around hw hv hx => exact (ValueText.front hv).around hv hw hx

theorem ItemsText.front {vs : List Value} {t : List Char} (h : ItemsText vs t) :
    ItemsFront vs t := by
  match h with
  | .one hv => exact (PaddedText.front hv).one
  | .more hv hvs => exact (PaddedText.front hv).more (ItemsText.front hvs)

theorem MembersText.front {ms : List (String × Value)} {t : List Char} (h : MembersText ms t) :
    MembersFront ms t := by
  match h with
  | .one hw hn hx hv => exact (PaddedText.front hv).oneMember hw hn hx
  | .more hw hn hx hv hms =>
      exact (PaddedText.front hv).moreMembers hw hn hx (MembersText.front hms)

end

/-- A text is a text of one value at most. -/
theorem PaddedText.unique {v v' : Value} {t : List Char} (hv : PaddedText v t)
    (hv' : PaddedText v' t) : v = v' :=
  (hv.front hv' nofun nofun (r := []) (q := []) rfl).1

end Grammar

/-- The bytes are JSON text of the value in UTF-8. -/
def Encodes (v : Value) (body : List UInt8) : Prop :=
  ∃ t, PaddedText v t ∧ Text.Utf8.encode t = body

theorem Encodes.unique {v w : Value} {body : List UInt8} (hv : Encodes v body)
    (hw : Encodes w body) : v = w := by
  obtain ⟨t, ht, rfl⟩ := hv
  obtain ⟨u, hu, heq⟩ := hw
  have hdecode := congrArg Text.Utf8.decode? heq
  rw [Text.Utf8.decode?_encode, Text.Utf8.decode?_encode] at hdecode
  obtain rfl := Option.some.inj hdecode
  exact ht.unique hu

end SpanStore.Json
