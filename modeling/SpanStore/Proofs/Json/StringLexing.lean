import SpanStore.Json.Reader
import SpanStore.Proofs.Json.Tree
import SpanStore.Proofs.Text.Hex
import SpanStore.Proofs.Text.Utf8

namespace SpanStore.Json

open Grammar Text Text.Utf8

def TextState.next? (s : TextState × List Piece) (b : UInt8) : Option (TextState × List Piece) :=
  match s.1.step s.2 b with
  | .more state pieces => some (state, pieces)
  | _ => none

theorem Reader.foldl_feed_text {p : Progress} {bs : List UInt8} {s s' : TextState × List Piece}
    (h : bs.foldlM TextState.next? s = some s') :
    bs.foldl Reader.feed ⟨p, .text s.1 s.2, none⟩ = ⟨p, .text s'.1 s'.2, none⟩ := by
  induction bs generalizing s with
  | nil =>
      obtain rfl : s = s' := by simpa using h
      rfl
  | cons b bs ih =>
      simp only [List.foldlM_cons, Option.bind_eq_bind, Option.bind_eq_some_iff] at h
      obtain ⟨u, hu, hrest⟩ := h
      have hfeed : Reader.feed ⟨p, .text s.1 s.2, none⟩ b = ⟨p, .text u.1 u.2, none⟩ := by
        simp only [TextState.next?] at hu
        split at hu
        · rename_i state pieces hstep
          obtain rfl := Option.some.inj hu
          simp [Reader.feed, hstep]
        · cases hu
      rw [List.foldl_cons, hfeed, ih hrest]

theorem resolve?_bytes (bs acc : List UInt8) (rest : List Piece) :
    Piece.resolve? acc (bs.map Piece.byte ++ rest) = Piece.resolve? (bs.reverse ++ acc) rest := by
  induction bs generalizing acc with
  | nil => rfl
  | cons b bs ih =>
      simp only [List.map_cons, List.cons_append, Piece.resolve?, List.reverse_cons,
        List.append_assoc]
      exact ih (b :: acc)

section Plain

variable {n k left : Nat} {ps : List Piece}

theorem next?_ascii (hlow : 0x20 ≤ n) (hhigh : n < 0x80) (hquote : n ≠ 0x22)
    (hescape : n ≠ 0x5C) :
    TextState.next? (.plain, ps) (UInt8.ofNat n) =
      some (.plain, .byte (UInt8.ofNat n) :: ps) := by
  have hn : n < 256 := by omega
  have hcontrol : ¬ n < (0x20 : UInt8).toNat := Nat.not_lt.mpr hlow
  have hascii : n < (0x80 : UInt8).toNat := hhigh
  have hquote' : ¬ n = (0x22 : UInt8).toNat := hquote
  have hescape' : ¬ n = (0x5C : UInt8).toNat := hescape
  simp [TextState.next?, TextState.step, ofNat_eq_iff hn, ofNat_lt_iff hn, hcontrol, hascii,
    hquote', hescape', -UInt8.reduceToNat]

theorem next?_lead (hlow : 0xC0 ≤ n) (hhigh : n < 0xF8) :
    TextState.next? (.plain, ps) (UInt8.ofNat n) =
      some (.tail (if n < 0xE0 then 1 else if n < 0xF0 then 2 else 3),
        .byte (UInt8.ofNat n) :: ps) := by
  have hn : n < 256 := by omega
  have hquote : UInt8.ofNat n ≠ 0x22 := by
    rw [ne_eq, ofNat_eq_iff hn]
    simp
    omega
  have hescape : UInt8.ofNat n ≠ 0x5C := by
    rw [ne_eq, ofNat_eq_iff hn]
    simp
    omega
  simp only [TextState.next?, TextState.step, hquote, hescape, if_false, ofNat_lt_iff hn,
    UInt8.toNat_ofNat]
  rw [if_neg (by omega), if_neg (by omega), if_neg (by omega)]
  by_cases htwo : n < 0xE0
  · simp [htwo]
  · by_cases hthree : n < 0xF0
    · simp [htwo, hthree]
    · simp [htwo, hthree, hhigh]

theorem next?_tail_last (hk : k < 64) :
    TextState.next? (.tail 1, ps) (UInt8.ofNat (k + 0x80)) =
      some (.plain, .byte (UInt8.ofNat (k + 0x80)) :: ps) := by
  have hn : k + 0x80 < 256 := by omega
  simp only [TextState.next?, TextState.step, ofNat_lt_iff hn, le_ofNat_iff hn, UInt8.toNat_ofNat]
  rw [if_pos (by omega)]
  rfl

theorem next?_tail_more (hk : k < 64) :
    TextState.next? (.tail (left + 2), ps) (UInt8.ofNat (k + 0x80)) =
      some (.tail (left + 1), .byte (UInt8.ofNat (k + 0x80)) :: ps) := by
  have hn : k + 0x80 < 256 := by omega
  simp only [TextState.next?, TextState.step, ofNat_lt_iff hn, le_ofNat_iff hn, UInt8.toNat_ofNat]
  rw [if_pos (by omega)]
  rfl

end Plain

theorem foldlM_next?_plain {c : Char} (hcontrol : 0x20 ≤ c.toNat) (hquote : c ≠ '\x22')
    (hescape : c ≠ '\\') (ps : List Piece) :
    (Utf8.encode [c]).foldlM TextState.next? (.plain, ps) =
      some (.plain, ((String.utf8EncodeChar c).map .byte).reverse ++ ps) := by
  have hbound := toNat_lt_or_lt c
  have hquote' : c.toNat ≠ 0x22 := fun h => hquote (Char.toNat_inj.mp h)
  have hescape' : c.toNat ≠ 0x5C := fun h => hescape (Char.toNat_inj.mp h)
  rw [encode_cons, encode_nil, List.append_nil]
  rcases encodeChar_cases c with ⟨h, he⟩ | ⟨h₁, h₂, he⟩ | ⟨h₁, h₂, he⟩ | ⟨h, he⟩
  · rw [he]
    simp [next?_ascii hcontrol h hquote' hescape']
  · have hlead : c.toNat / 64 + 0xC0 < 0xE0 := by omega
    have hlast : c.toNat % 64 < 64 := by omega
    rw [he]
    simp [next?_lead (n := c.toNat / 64 + 0xC0) (by omega) (by omega), hlead,
      next?_tail_last hlast,
      -UInt8.ofNat_add]
  · have hlead : ¬ c.toNat / 4096 + 0xE0 < 0xE0 ∧ c.toNat / 4096 + 0xE0 < 0xF0 := by omega
    have hmiddle : c.toNat / 64 % 64 < 64 := by omega
    have hlast : c.toNat % 64 < 64 := by omega
    rw [he]
    simp [next?_lead (n := c.toNat / 4096 + 0xE0) (by omega) (by omega), hlead,
      next?_tail_more hmiddle, next?_tail_last hlast,
      -UInt8.ofNat_add]
  · have hlead : ¬ c.toNat / 262144 + 0xF0 < 0xE0 ∧ ¬ c.toNat / 262144 + 0xF0 < 0xF0 := by omega
    have hsecond : c.toNat / 4096 % 64 < 64 := by omega
    have hthird : c.toNat / 64 % 64 < 64 := by omega
    have hlast : c.toNat % 64 < 64 := by omega
    rw [he]
    simp [next?_lead (n := c.toNat / 262144 + 0xF0) (by omega) (by omega), hlead,
      next?_tail_more hsecond, next?_tail_more hthird, next?_tail_last hlast,
      -UInt8.ofNat_add]

theorem encodeChar_of_hexValue? {c : Char} {i : Nat} (h : hexValue? c = some i) :
    String.utf8EncodeChar c = [UInt8.ofNat c.toNat] ∧
      hexValue? (Char.ofNat (UInt8.ofNat c.toNat).toNat) = some i := by
  have hsmall := (hexValue?_eq_some h).1
  refine ⟨encodeChar_ascii hsmall, ?_⟩
  rwa [toNat_ofNat_of_lt (by omega), Char.ofNat_toNat]

theorem foldlM_next?_unit {n : Nat} {ds : List Char} (h : UnitText n ds) (ps : List Piece) :
    (Utf8.encode ('\\' :: 'u' :: ds)).foldlM TextState.next? (.plain, ps) =
      some (.plain, .unit n :: ps) := by
  cases h with
  | @digits a b c d i j k l ha hb hc hd =>
      obtain ⟨hae, hav⟩ := encodeChar_of_hexValue? ha
      obtain ⟨hbe, hbv⟩ := encodeChar_of_hexValue? hb
      obtain ⟨hce, hcv⟩ := encodeChar_of_hexValue? hc
      obtain ⟨hde, hdv⟩ := encodeChar_of_hexValue? hd
      have hescape : TextState.next? (.plain, ps) 0x5C = some (.escape, ps) := rfl
      have hencode : Utf8.encode ['\\', 'u', a, b, c, d] = [0x5C, 0x75, UInt8.ofNat a.toNat,
          UInt8.ofNat b.toNat, UInt8.ofNat c.toNat, UInt8.ofNat d.toNat] := by
        simp only [encode_cons, encode_nil, hae, hbe, hce, hde]
        rfl
      rw [hencode, List.foldlM_cons, hescape]
      simp [TextState.next?, TextState.step, hav, hbv, hcv, hdv, -UInt8.toNat_ofNat']

theorem foldlM_next?_letter {e c : Char} (h : (e, c) ∈ letterEscapes) (ps : List Piece) :
    (Utf8.encode ['\\', e]).foldlM TextState.next? (.plain, ps) =
      some (.plain, ((String.utf8EncodeChar c).map .byte).reverse ++ ps) := by
  simp only [letterEscapes, List.mem_cons, Prod.mk.injEq, List.not_mem_nil, or_false] at h
  rcases h with ⟨rfl, rfl⟩ | ⟨rfl, rfl⟩ | ⟨rfl, rfl⟩ | ⟨rfl, rfl⟩ | ⟨rfl, rfl⟩ | ⟨rfl, rfl⟩ |
    ⟨rfl, rfl⟩ | ⟨rfl, rfl⟩ <;>
  rfl

namespace Glyph

def pieces : Glyph → List Piece
  | char c => (String.utf8EncodeChar c).map .byte
  | unit n => [.unit n]

theorem foldlM_next?_glyph {g : Glyph} {t : List Char} (h : g.Text t) (ps : List Piece) :
    (Utf8.encode t).foldlM TextState.next? (.plain, ps) =
      some (.plain, g.pieces.reverse ++ ps) := by
  cases h with
  | plain hcontrol hquote hescape => exact foldlM_next?_plain hcontrol hquote hescape ps
  | letter hletter => exact foldlM_next?_letter hletter ps
  | unit hunit => exact foldlM_next?_unit hunit ps

theorem foldlM_next?_content {gs : List Glyph} {t : List Char} (h : Content gs t)
    (ps : List Piece) :
    (Utf8.encode t).foldlM TextState.next? (.plain, ps) =
      some (.plain, (gs.flatMap pieces).reverse ++ ps) := by
  induction h generalizing ps with
  | nil => rfl
  | cons hg hgs ih =>
      rw [encode_append, List.foldlM_append, foldlM_next?_glyph hg]
      simp [ih]

theorem resolve?_lone {high : Nat} (hhigh : Piece.isHigh high = true) (c : Char)
    (acc : List UInt8) (rest : List Piece) :
    Piece.resolve? acc (.unit high :: ((char c).pieces ++ rest)) =
      Piece.resolve? ((Utf8.encode ['?', c]).reverse ++ acc) rest := by
  have hmark : String.utf8EncodeChar '?' = [0x3F] := rfl
  cases hbytes : String.utf8EncodeChar c with
  | nil => exact absurd hbytes String.utf8EncodeChar_ne_nil
  | cons b bs =>
      have hkept := resolve?_bytes bs (b :: 0x3F :: acc) rest
      simpa [pieces, hbytes, Piece.resolve?, hhigh, encode_cons, hmark] using hkept

/-- Pieces resolve to the bytes of the characters that they are kept of. -/
theorem resolve?_pieces (high : Option Nat) (hhigh : ∀ n ∈ high, Piece.isHigh n = true)
    (gs : List Glyph) (acc : List UInt8) :
    Piece.resolve? acc (high.toList.map .unit ++ gs.flatMap pieces) =
      (text? high gs).map fun s => acc.reverse ++ Utf8.encode s := by
  -- A high unit waits for what comes next, so the induction carries it along.
  induction gs generalizing high acc with
  | nil =>
      cases high with
      | none => simp [Piece.resolve?, text?]
      | some h => simp [Piece.resolve?, text?, hhigh h rfl]; rfl
  | cons g gs ih =>
      cases g with
      | char c =>
          cases high with
          | none =>
              have hrest := ih none (by simp) ((String.utf8EncodeChar c).reverse ++ acc)
              rw [List.flatMap_cons, pieces, Option.toList_none, List.map_nil, List.nil_append,
                resolve?_bytes]
              simpa [text?, encode_cons, Function.comp_def] using hrest
          | some h =>
              have hrest := ih none (by simp) ((Utf8.encode ['?', c]).reverse ++ acc)
              rw [List.flatMap_cons, Option.toList_some, List.map_cons, List.map_nil,
                List.singleton_append, resolve?_lone (hhigh h rfl)]
              simpa [text?, encode_cons, Function.comp_def] using hrest
      | unit n =>
          cases high with
          | some h =>
              have hrest := ih none (by simp)
                ((String.utf8EncodeChar (Piece.combine h n)).reverse ++ acc)
              simpa [pieces, text?, Piece.resolve?, hhigh h rfl, encode_cons,
                Function.comp_def] using hrest
          | none =>
              by_cases hunit : Piece.isHigh n = true
              · simpa [pieces, text?, hunit] using ih (some n) (by simpa using hunit) acc
              · rw [Option.toList_none, List.map_nil, List.nil_append, List.flatMap_cons, pieces,
                  List.singleton_append, Piece.resolve?.eq_def]
                by_cases hlow : Piece.isLow n = true
                · simp [text?, hunit, hlow]
                · have hrest := ih none (by simp)
                    ((String.utf8EncodeChar (Char.ofNat n)).reverse ++ acc)
                  simpa [text?, hunit, hlow, encode_cons, Function.comp_def] using hrest

theorem decode?_pieces (gs : List Glyph) :
    Piece.decode? (gs.flatMap pieces) = string? gs := by
  have hresolve := resolve?_pieces none (by simp) gs []
  rw [Option.toList_none, List.map_nil, List.nil_append] at hresolve
  rw [Piece.decode?, hresolve, string?]
  cases text? none gs <;> simp

end Glyph

theorem Reader.foldl_feed_quoted {gs : List Glyph} {t : List Char} (h : Glyph.Quoted gs t)
    (p : Progress) :
    ∃ l, (Utf8.encode t).foldl Reader.feed ⟨p, .none, none⟩ =
      Reader.accept ⟨p, l, none⟩ (.text (Glyph.string? gs)) := by
  cases h with
  | @quoted content hcontent =>
      have hread := Glyph.foldlM_next?_content hcontent []
      have hopen : Reader.feed ⟨p, .none, none⟩ 0x22 = ⟨p, .text .plain [], none⟩ := rfl
      have hencode : Utf8.encode ('\x22' :: content ++ ['\x22']) =
          0x22 :: (Utf8.encode content ++ [0x22]) := by
        rw [List.cons_append, encode_cons, encode_append]
        rfl
      refine ⟨.text .plain (gs.flatMap Glyph.pieces).reverse, ?_⟩
      rw [hencode, List.foldl_cons, hopen, List.foldl_append, Reader.foldl_feed_text hread]
      simp [Reader.feed, TextState.step, Glyph.decode?_pieces]

end SpanStore.Json
