import SpanStore.Json.Token
import SpanStore.Proofs.Json.Grammar
import SpanStore.Proofs.Number.Finite

namespace SpanStore.Json

open Grammar

/-- A character of a string, or the UTF-16 unit that an escape gives by its number. -/
inductive Glyph where
  | char (c : Char)
  | unit (n : Nat)

namespace Glyph

inductive Text : Glyph → List Char → Prop where
  | plain {c : Char} (hcontrol : 0x20 ≤ c.toNat) (hquote : c ≠ '\x22') (hescape : c ≠ '\\') :
      Text (.char c) [c]
  | letter {e c : Char} (hletter : (e, c) ∈ letterEscapes) : Text (.char c) ['\\', e]
  | unit {n : Nat} {ds : List Char} (hunit : UnitText n ds) : Text (.unit n) ('\\' :: 'u' :: ds)

inductive Content : List Glyph → List Char → Prop where
  | nil : Content [] []
  | cons {g : Glyph} {gs : List Glyph} {t ts : List Char} (hg : g.Text t) (hgs : Content gs ts) :
      Content (g :: gs) (t ++ ts)

inductive Quoted : List Glyph → List Char → Prop where
  | quoted {gs : List Glyph} {t : List Char} (h : Content gs t) :
      Quoted gs ('\x22' :: t ++ ['\x22'])

theorem Content.plain {s : List Char} (h : s.all isPlain = true) : Content (s.map char) s := by
  induction s with
  | nil => exact .nil
  | cons c s ih =>
      obtain ⟨hc, hrest⟩ := Bool.and_eq_true_iff.mp h
      simp only [isPlain, Bool.and_eq_true, decide_eq_true_eq, bne_iff_ne] at hc
      obtain ⟨⟨hcontrol, hquote⟩, hescape⟩ := hc
      exact .cons (.plain hcontrol hquote hescape) (ih hrest)

/-- The characters of a string after a high unit, if one stands right before it. A high unit takes
the unit that follows it, whichever that is, and is a question mark where none follows. A low unit
that none takes has no character. -/
def text? (high : Option Nat) : List Glyph → Option (List Char)
  | [] => some (if high.isSome then ['?'] else [])
  | char c :: gs => (text? none gs).map ((if high.isSome then ['?'] else []) ++ c :: ·)
  | unit n :: gs =>
      match high with
      | some h => (text? none gs).map (Piece.combine h n :: ·)
      | none =>
          if Piece.isHigh n then text? (some n) gs
          else if Piece.isLow n then none
          else (text? none gs).map (Char.ofNat n :: ·)

/-- A low unit stands where no high one takes it. -/
def strays (afterHigh : Bool) : List Glyph → Bool
  | [] => false
  | char _ :: gs => strays false gs
  | unit n :: gs =>
      if afterHigh then strays false gs else Piece.isLow n || strays (Piece.isHigh n) gs

def string? (gs : List Glyph) : Option String := (text? none gs).map String.ofList

theorem isSome_text? (high : Option Nat) (gs : List Glyph) :
    (text? high gs).isSome = !strays high.isSome gs := by
  induction gs generalizing high with
  | nil => rfl
  | cons g gs ih =>
      cases g with
      | char c => simp [text?, strays, ih]
      | unit n =>
          cases high with
          | some h => simp [text?, strays, ih]
          | none =>
              by_cases hhigh : Piece.isHigh n = true
              · have hlow : Piece.isLow n = false := by
                  simp only [Piece.isHigh, Piece.isLow, Bool.and_eq_true, decide_eq_true_eq,
                    Bool.and_eq_false_iff, decide_eq_false_iff_not] at hhigh ⊢
                  omega
                simp [text?, strays, hhigh, hlow, ih]
              · by_cases hlow : Piece.isLow n = true <;> simp [text?, strays, hhigh, hlow, ih]

theorem isSome_string?_iff (gs : List Glyph) :
    (string? gs).isSome = true ↔ strays false gs = false := by
  rw [string?, Option.isSome_map, isSome_text?, Option.isSome_none, Bool.not_eq_true']

end Glyph

inductive Numeral where
  | whole (negative : Bool) (digits : List Char)
  | decimal (negative : Bool) (digits fraction : List Char) (exponent : Int)

namespace Numeral

inductive Text : Numeral → List Char → Prop where
  | whole {negative : Bool} {ds : List Char} (h : Whole ds) :
      Text (.whole negative ds) (signText negative ++ ds)
  | decimal {negative : Bool} {ds fraction fractionText exponentText : List Char}
      {exponent : Int} (hwhole : Whole ds) (hfraction : FractionText fraction fractionText)
      (hexponent : ExponentText exponent exponentText)
      (hmarked : fractionText ++ exponentText ≠ []) :
      Text (.decimal negative ds fraction exponent)
        (signText negative ++ ds ++ fractionText ++ exponentText)

/-- A whole number of at most 63 bits beside its sign, or the nearest floating-point number. -/
def value? : Numeral → Option Value
  | whole negative ds =>
      if digitsValue ds < 2 ^ 63 then
        some (.int (if negative then -(digitsValue ds : Int) else digitsValue ds))
      else none
  | decimal negative ds fraction exponent =>
      (Binary64.ofDecimal? negative (digitsValue (ds ++ fraction))
        (exponent - fraction.length)).map .float

def Fits : Numeral → Prop
  | whole _ ds => digitsValue ds < 2 ^ 63
  | decimal _ ds fraction exponent =>
      (digitsValue (ds ++ fraction) : ℚ) * 10 ^ (exponent - fraction.length) < Binary64.overflow

theorem isSome_value?_iff (n : Numeral) : n.value?.isSome = true ↔ n.Fits := by
  cases n with
  | whole negative ds =>
      rw [value?, Fits]
      split <;> simp_all
  | decimal negative ds fraction exponent =>
      rw [value?, Option.isSome_map, Binary64.isSome_ofDecimal?_iff, Fits]

end Numeral

inductive Tree where
  | null
  | bool (b : Bool)
  | number (n : Numeral)
  | text (gs : List Glyph)
  | list (items : List Tree)
  | object (members : List (List Glyph × Tree))

namespace Tree

mutual

inductive Text : Tree → List Char → Prop where
  | null : Text .null ['n', 'u', 'l', 'l']
  | true : Text (.bool true) ['t', 'r', 'u', 'e']
  | false : Text (.bool false) ['f', 'a', 'l', 's', 'e']
  | number {n : Numeral} {t : List Char} (h : n.Text t) : Text (.number n) t
  | text {gs : List Glyph} {t : List Char} (h : Glyph.Quoted gs t) : Text (.text gs) t
  | emptyList {w : List Char} (hw : Blank w) : Text (.list []) ('[' :: w ++ [']'])
  | list {items : List Tree} {t : List Char} (h : Items items t) :
      Text (.list items) ('[' :: t ++ [']'])
  | emptyObject {w : List Char} (hw : Blank w) : Text (.object []) ('\x7b' :: w ++ ['\x7d'])
  | object {members : List (List Glyph × Tree)} {t : List Char} (h : Members members t) :
      Text (.object members) ('\x7b' :: t ++ ['\x7d'])

inductive Padded : Tree → List Char → Prop where
  | around {s : Tree} {w t w' : List Char} (hw : Blank w) (hs : Text s t) (hw' : Blank w') :
      Padded s (w ++ t ++ w')

inductive Items : List Tree → List Char → Prop where
  | one {s : Tree} {t : List Char} (hs : Padded s t) : Items [s] t
  | more {s : Tree} {ss : List Tree} {t ts : List Char} (hs : Padded s t) (hss : Items ss ts) :
      Items (s :: ss) (t ++ ',' :: ts)

inductive Members : List (List Glyph × Tree) → List Char → Prop where
  | one {gs : List Glyph} {s : Tree} {w n w' t : List Char} (hw : Blank w)
      (hn : Glyph.Quoted gs n) (hw' : Blank w') (hs : Padded s t) :
      Members [(gs, s)] (w ++ n ++ w' ++ ':' :: t)
  | more {gs : List Glyph} {s : Tree} {ms : List (List Glyph × Tree)} {w n w' t ts : List Char}
      (hw : Blank w) (hn : Glyph.Quoted gs n) (hw' : Blank w') (hs : Padded s t)
      (hms : Members ms ts) :
      Members ((gs, s) :: ms) (w ++ n ++ w' ++ ':' :: t ++ ',' :: ts)

end

mutual

def value? : Tree → Option Value
  | null => some .null
  | bool b => some (.bool b)
  | number n => n.value?
  | text gs => (Glyph.string? gs).map .text
  | list items => (itemsValue? items).map .list
  | object members => (membersValue? members).map .object

def itemsValue? : List Tree → Option (List Value)
  | [] => some []
  | s :: ss => (value? s).bind fun v => (itemsValue? ss).map (v :: ·)

def membersValue? : List (List Glyph × Tree) → Option (List (String × Value))
  | [] => some []
  | m :: ms =>
      (Glyph.string? m.1).bind fun name => (value? m.2).bind fun v =>
        (membersValue? ms).map ((name, v) :: ·)

end

mutual

/-- No number is too large, and no half of a character strays in a string or a name. -/
def Readable : Tree → Prop
  | number n => n.Fits
  | text gs => Glyph.strays false gs = false
  | list items => ItemsReadable items
  | object members => MembersReadable members
  | _ => True

def ItemsReadable : List Tree → Prop
  | [] => True
  | s :: ss => Readable s ∧ ItemsReadable ss

def MembersReadable : List (List Glyph × Tree) → Prop
  | [] => True
  | m :: ms => Glyph.strays false m.1 = false ∧ Readable m.2 ∧ MembersReadable ms

end

theorem itemsValue?_singleton (s : Tree) : itemsValue? [s] = s.value?.map ([·]) := by
  rw [itemsValue?]
  cases s.value? <;> rfl

theorem membersValue?_singleton (gs : List Glyph) (s : Tree) :
    membersValue? [(gs, s)] = (Glyph.string? gs).bind fun name =>
      s.value?.map fun v => [(name, v)] := by
  rw [membersValue?]
  cases s.value? <;> rfl

mutual

theorem isSome_value?_iff (s : Tree) : s.value?.isSome = true ↔ s.Readable := by
  cases s with
  | number n => exact n.isSome_value?_iff
  | text gs =>
      rw [value?, Option.isSome_map, Glyph.isSome_string?_iff, Readable]
  | list items =>
      rw [value?, Option.isSome_map, isSome_itemsValue?_iff items, Readable]
  | object members =>
      rw [value?, Option.isSome_map, isSome_membersValue?_iff members, Readable]
  | _ => exact iff_of_true rfl trivial

theorem isSome_itemsValue?_iff (ss : List Tree) :
    (itemsValue? ss).isSome = true ↔ ItemsReadable ss := by
  cases ss with
  | nil => exact iff_of_true rfl trivial
  | cons s ss =>
      rw [ItemsReadable, ← isSome_value?_iff s, ← isSome_itemsValue?_iff ss, itemsValue?]
      cases s.value? <;> simp

theorem isSome_membersValue?_iff (ms : List (List Glyph × Tree)) :
    (membersValue? ms).isSome = true ↔ MembersReadable ms := by
  cases ms with
  | nil => exact iff_of_true rfl trivial
  | cons m ms =>
      rw [MembersReadable, ← Glyph.isSome_string?_iff, ← isSome_value?_iff m.2,
        ← isSome_membersValue?_iff ms, membersValue?]
      cases Glyph.string? m.1 <;> cases m.2.value? <;> simp

end

end Tree

end SpanStore.Json
