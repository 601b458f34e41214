import SpanStore.Json.Value
import SpanStore.Number.Binary64
import SpanStore.Text.Hex

/-!
JSON text and the value that it is a text of. A value has many texts: blanks may stand around
every token, a character of a string may be escaped in several ways, and a number that is not
whole may be written with any digits that it is the nearest floating-point number to.
-/
namespace SpanStore.Json.Grammar

def Blank (w : List Char) : Prop := ∀ c ∈ w, c = ' ' ∨ c = '\t' ∨ c = '\n' ∨ c = '\r'

inductive UnitText : Nat → List Char → Prop where
  | digits {a b c d : Char} {i j k l : Nat} (ha : Text.hexValue? a = some i)
      (hb : Text.hexValue? b = some j) (hc : Text.hexValue? c = some k)
      (hd : Text.hexValue? d = some l) :
      UnitText (((i * 16 + j) * 16 + k) * 16 + l) [a, b, c, d]

def letterEscapes : List (Char × Char) :=
  [('\x22', '\x22'), ('\\', '\\'), ('/', '/'), ('b', '\x08'), ('f', '\x0c'), ('n', '\n'),
    ('r', '\r'), ('t', '\t')]

/-- One character of a string. A character beyond the first plane is escaped as a pair. -/
inductive CharText : Char → List Char → Prop where
  | plain {c : Char} (hcontrol : 0x20 ≤ c.toNat) (hquote : c ≠ '\x22') (hescape : c ≠ '\\') :
      CharText c [c]
  | letter {e c : Char} (hletter : (e, c) ∈ letterEscapes) : CharText c ['\\', e]
  | unit {c : Char} {ds : List Char} (hunit : UnitText c.toNat ds) : CharText c ('\\' :: 'u' :: ds)
  | pair {c : Char} {high low : Nat} {hs ls : List Char} (hhigh : UnitText (0xD800 + high) hs)
      (hlow : UnitText (0xDC00 + low) ls) (hhighBound : high < 0x400) (hlowBound : low < 0x400)
      (hvalue : c.toNat = 0x10000 + high * 0x400 + low) :
      CharText c ('\\' :: 'u' :: hs ++ '\\' :: 'u' :: ls)

inductive ContentText : List Char → List Char → Prop where
  | nil : ContentText [] []
  | cons {c : Char} {s t ts : List Char} (hc : CharText c t) (hs : ContentText s ts) :
      ContentText (c :: s) (t ++ ts)

inductive StringText : String → List Char → Prop where
  | quoted {s : String} {t : List Char} (h : ContentText s.toList t) :
      StringText s ('\x22' :: t ++ ['\x22'])

def isPlain (c : Char) : Bool := 0x20 ≤ c.toNat && c != '\x22' && c != '\\'

theorem ContentText.plain {s : List Char} (h : s.all isPlain = true) : ContentText s s := by
  induction s with
  | nil => exact .nil
  | cons c s ih =>
      obtain ⟨hc, hrest⟩ := Bool.and_eq_true_iff.mp h
      simp only [isPlain, Bool.and_eq_true, decide_eq_true_eq, bne_iff_ne] at hc
      obtain ⟨⟨hcontrol, hquote⟩, hescape⟩ := hc
      exact .cons (.plain hcontrol hquote hescape) (ih hrest)

def Digits (ds : List Char) : Prop := ds ≠ [] ∧ ∀ c ∈ ds, '0' ≤ c ∧ c ≤ '9'

def pushDigit (n : Nat) (c : Char) : Nat := n * 10 + (c.toNat - 0x30)

def digitsValue (ds : List Char) : Nat := ds.foldl pushDigit 0

/-- Digits of which the first is zero only if it is the only one. -/
def Whole (ds : List Char) : Prop := Digits ds ∧ ∀ rest, ds = '0' :: rest → rest = []

inductive IntText : Int → List Char → Prop where
  | positive {ds : List Char} (h : Whole ds) : IntText (digitsValue ds) ds
  | negative {ds : List Char} (h : Whole ds) : IntText (-(digitsValue ds)) ('-' :: ds)

inductive FractionText : List Char → List Char → Prop where
  | none : FractionText [] []
  | some {ds : List Char} (h : Digits ds) : FractionText ds ('.' :: ds)

inductive ExponentText : Int → List Char → Prop where
  | none : ExponentText 0 []
  | plain {m : Char} {ds : List Char} (hm : m = 'e' ∨ m = 'E') (h : Digits ds) :
      ExponentText (digitsValue ds) (m :: ds)
  | plus {m : Char} {ds : List Char} (hm : m = 'e' ∨ m = 'E') (h : Digits ds) :
      ExponentText (digitsValue ds) (m :: '+' :: ds)
  | minus {m : Char} {ds : List Char} (hm : m = 'e' ∨ m = 'E') (h : Digits ds) :
      ExponentText (-(digitsValue ds)) (m :: '-' :: ds)

def signText (negative : Bool) : List Char := if negative then ['-'] else []

/-- A number with a fraction or an exponent. Its value is the nearest floating-point number. -/
inductive FloatText : Float → List Char → Prop where
  | nearest {negative : Bool} {whole fraction fractionText exponentText : List Char}
      {exponent : Int} {f : Float} (hwhole : Whole whole)
      (hfraction : FractionText fraction fractionText)
      (hexponent : ExponentText exponent exponentText)
      (hmarked : fractionText ++ exponentText ≠ [])
      (hvalue : Binary64.ofDecimal? negative (digitsValue (whole ++ fraction))
        (exponent - fraction.length) = some f) :
      FloatText f (signText negative ++ whole ++ fractionText ++ exponentText)

mutual

inductive ValueText : Value → List Char → Prop where
  | null : ValueText .null ['n', 'u', 'l', 'l']
  | true : ValueText (.bool true) ['t', 'r', 'u', 'e']
  | false : ValueText (.bool false) ['f', 'a', 'l', 's', 'e']
  | int {n : Int} {t : List Char} (h : IntText n t) : ValueText (.int n) t
  | float {f : Float} {t : List Char} (h : FloatText f t) : ValueText (.float f) t
  | text {s : String} {t : List Char} (h : StringText s t) : ValueText (.text s) t
  | emptyList {w : List Char} (hw : Blank w) : ValueText (.list []) ('[' :: w ++ [']'])
  | list {items : List Value} {t : List Char} (h : ItemsText items t) :
      ValueText (.list items) ('[' :: t ++ [']'])
  | emptyObject {w : List Char} (hw : Blank w) :
      ValueText (.object []) ('\x7b' :: w ++ ['\x7d'])
  | object {members : List (String × Value)} {t : List Char} (h : MembersText members t) :
      ValueText (.object members) ('\x7b' :: t ++ ['\x7d'])

inductive PaddedText : Value → List Char → Prop where
  | around {v : Value} {w t w' : List Char} (hw : Blank w) (hv : ValueText v t) (hw' : Blank w') :
      PaddedText v (w ++ t ++ w')

inductive ItemsText : List Value → List Char → Prop where
  | one {v : Value} {t : List Char} (hv : PaddedText v t) : ItemsText [v] t
  | more {v : Value} {vs : List Value} {t ts : List Char} (hv : PaddedText v t)
      (hvs : ItemsText vs ts) : ItemsText (v :: vs) (t ++ ',' :: ts)

inductive MembersText : List (String × Value) → List Char → Prop where
  | one {name : String} {v : Value} {w n w' t : List Char} (hw : Blank w) (hn : StringText name n)
      (hw' : Blank w') (hv : PaddedText v t) :
      MembersText [(name, v)] (w ++ n ++ w' ++ ':' :: t)
  | more {name : String} {v : Value} {ms : List (String × Value)} {w n w' t ts : List Char}
      (hw : Blank w) (hn : StringText name n) (hw' : Blank w') (hv : PaddedText v t)
      (hms : MembersText ms ts) :
      MembersText ((name, v) :: ms) (w ++ n ++ w' ++ ':' :: t ++ ',' :: ts)

end

theorem Blank.nil : Blank [] := fun _ h => absurd h List.not_mem_nil

theorem PaddedText.bare {v : Value} {t : List Char} (h : ValueText v t) : PaddedText v t := by
  simpa using PaddedText.around .nil h .nil

theorem MembersText.bare {name : String} {v : Value} {n t : List Char} (hn : StringText name n)
    (hv : ValueText v t) : MembersText [(name, v)] (n ++ ':' :: t) := by
  simpa using MembersText.one .nil hn .nil (.bare hv)

end SpanStore.Json.Grammar
