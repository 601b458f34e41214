import SpanStore.Proofs.Text.Utf8
import SpanStore.Text.Preview

namespace SpanStore.Text

namespace Utf8

section Pieces

@[simp] theorem Decoder.finish_none (ps : List (Option Char)) :
    (⟨ps, none⟩ : Decoder).finish = ps.reverse := rfl

@[simp] theorem Decoder.finish_some (ps : List (Option Char)) (p : Pending) :
    (⟨ps, some p⟩ : Decoder).finish = (none :: ps).reverse := rfl

theorem Decoder.start_eq (ps : List (Option Char)) (b : UInt8) :
    (∃ o, start ps b = ⟨o :: ps, none⟩) ∨ ∃ p, start ps b = ⟨ps, some p⟩ := by
  unfold start
  split
  · exact .inl ⟨_, rfl⟩
  · split
    · exact .inr ⟨_, rfl⟩
    · exact .inl ⟨_, rfl⟩

theorem Decoder.length_start (ps : List (Option Char)) (b : UInt8) :
    (start ps b).finish.length = ps.length + 1 := by
  rcases start_eq ps b with ⟨o, h⟩ | ⟨p, h⟩
  · simp [h]
  · simp [h]

theorem Decoder.suffix_start (ps : List (Option Char)) (b : UInt8) :
    ps <:+ (start ps b).pieces := by
  rcases start_eq ps b with ⟨o, h⟩ | ⟨p, h⟩
  · rw [h]
    exact List.suffix_cons o ps
  · exact h ▸ List.suffix_rfl

theorem Decoder.step_some_eq (ps : List (Option Char)) (p : Pending) (b : UInt8) :
    (∃ o, step ⟨ps, some p⟩ b = ⟨o :: ps, none⟩) ∨ (∃ q, step ⟨ps, some p⟩ b = ⟨ps, some q⟩) ∨
      step ⟨ps, some p⟩ b = start (none :: ps) b := by
  unfold step
  dsimp only
  split
  · split
    · exact .inl ⟨_, rfl⟩
    · exact .inr (.inl ⟨_, rfl⟩)
  · exact .inr (.inr rfl)

theorem Decoder.suffix_step (d : Decoder) (b : UInt8) : d.pieces <:+ (d.step b).pieces := by
  obtain ⟨ps, pending⟩ := d
  cases pending with
  | none => exact suffix_start ps b
  | some p =>
      rcases step_some_eq ps p b with ⟨o, h⟩ | ⟨q, h⟩ | h
      · rw [h]
        exact List.suffix_cons o ps
      · exact h ▸ List.suffix_rfl
      · rw [h]
        exact (List.suffix_cons none ps).trans (suffix_start _ b)

theorem Decoder.length_le_step (d : Decoder) (b : UInt8) :
    d.finish.length ≤ (d.step b).finish.length := by
  obtain ⟨ps, pending⟩ := d
  cases pending with
  | none =>
      change _ ≤ (start ps b).finish.length
      simp [length_start]
  | some p =>
      rcases step_some_eq ps p b with ⟨o, h⟩ | ⟨q, h⟩ | h
      · simp [h]
      · simp [h]
      · simp [h, length_start]

theorem Decoder.suffix_foldl (d : Decoder) (bs : List UInt8) :
    d.pieces <:+ (bs.foldl step d).pieces := by
  induction bs generalizing d with
  | nil => exact List.suffix_rfl
  | cons b bs ih => exact (d.suffix_step b).trans (ih (d.step b))

theorem Decoder.length_le_foldl (d : Decoder) (bs : List UInt8) :
    d.finish.length ≤ (bs.foldl step d).finish.length := by
  induction bs generalizing d with
  | nil => exact Nat.le_refl _
  | cons b bs ih => exact Nat.le_trans (d.length_le_step b) (ih (d.step b))

theorem Decoder.length_lt_foldl (ps : List (Option Char)) {bs : List UInt8} (hbs : bs ≠ []) :
    ps.length < (bs.foldl step ⟨ps, none⟩).finish.length := by
  cases bs with
  | nil => exact absurd rfl hbs
  | cons b bs =>
      have hstart := length_start ps b
      have hrest := length_le_foldl (start ps b) bs
      rw [hstart] at hrest
      exact hrest

end Pieces

/-- Some bytes of a character, but not all, leave it under way: were they a piece of their own, the
other bytes would begin a second one. -/
theorem foldl_step_of_append (ps : List (Option Char)) {c : Char} {bs bs' : List UInt8}
    (hc : String.utf8EncodeChar c = bs ++ bs') (hbs : bs ≠ []) (hbs' : bs' ≠ []) :
    ∃ p, bs.foldl Decoder.step ⟨ps, none⟩ = ⟨ps, some p⟩ := by
  have hwhole := foldl_step_encodeChar ps c
  rw [hc, List.foldl_append] at hwhole
  have hbegun := Decoder.length_lt_foldl ps hbs
  have hsuffix : ps <:+ (bs.foldl Decoder.step ⟨ps, none⟩).pieces :=
    Decoder.suffix_foldl ⟨ps, none⟩ bs
  generalize bs.foldl Decoder.step ⟨ps, none⟩ = d at hwhole hbegun hsuffix
  obtain ⟨pieces, pending⟩ := d
  cases pending with
  | none =>
      have hsecond := Decoder.length_lt_foldl pieces hbs'
      rw [hwhole] at hsecond
      simp only [Decoder.finish_none, List.length_reverse, List.length_cons] at hbegun hsecond
      omega
  | some p =>
      have hlength := Decoder.length_le_foldl ⟨pieces, some p⟩ bs'
      rw [hwhole] at hlength
      obtain rfl : ps = pieces := hsuffix.eq_of_length_le (by simpa using hlength)
      exact ⟨p, rfl⟩

theorem map_getD_some (s : List Char) : (s.map some).map (fun p => p.getD '\uFFFD') = s := by
  induction s with
  | nil => rfl
  | cons c s ih => exact congrArg (c :: ·) ih

@[simp] theorem decodeLossy_encode (s : List Char) : decodeLossy (encode s) = s := by
  rw [decodeLossy, pieces_encode, map_getD_some]

theorem decodeLossy_cut (s : List Char) {c : Char} {bs bs' : List UInt8}
    (hc : String.utf8EncodeChar c = bs ++ bs') (hbs' : bs' ≠ []) :
    decodeLossy (encode s ++ bs) = s ++ if bs = [] then [] else ['\uFFFD'] := by
  by_cases hbs : bs = []
  · simp [hbs]
  · obtain ⟨p, hp⟩ := foldl_step_of_append (s.map some).reverse hc hbs hbs'
    rw [decodeLossy, pieces, List.foldl_append, foldl_step_encode, List.append_nil, hp,
      Decoder.finish_some, List.reverse_cons, List.reverse_reverse, List.map_append,
      map_getD_some, if_neg hbs]
    rfl

/-- The longest beginning of a text whose bytes are at most so many. -/
structure LongestWithin (size : Nat) (s p : List Char) : Prop where
  isPrefix : p <+: s
  fits : (encode p).length ≤ size
  longest : ∀ q, q <+: s → (encode q).length ≤ size → q <+: p

theorem length_encode_le {p q : List Char} (h : p <+: q) :
    (encode p).length ≤ (encode q).length := by
  obtain ⟨rest, rfl⟩ := h
  simp

theorem LongestWithin.whole {size : Nat} {s : List Char} (h : (encode s).length ≤ size) :
    LongestWithin size s s :=
  ⟨List.prefix_rfl, h, fun _ hq _ => hq⟩

theorem LongestWithin.of_next {size : Nat} {p rest : List Char} {c : Char}
    (hfits : (encode p).length ≤ size) (hnext : size < (encode (p ++ [c])).length) :
    LongestWithin size (p ++ c :: rest) p := by
  refine ⟨List.prefix_append p _, hfits, fun q hq hsize => ?_⟩
  have hlong : p ++ [c] <+: p ++ c :: rest := ⟨rest, by simp⟩
  -- a beginning that is longer than `p` has the next character, and does not fit
  rcases List.prefix_or_prefix_of_prefix hq (List.prefix_append p _) with h | h
  · exact h
  rcases List.prefix_or_prefix_of_prefix hq hlong with h' | h'
  · rcases List.prefix_concat_iff.mp h' with rfl | h'
    · omega
    · exact h'
  · have := length_encode_le h'
    omega

theorem exists_longestWithin {size : Nat} {s : List Char} (h : size < (encode s).length) :
    ∃ p c rest, s = p ++ c :: rest ∧ (encode p).length ≤ size ∧
      size < (encode (p ++ [c])).length := by
  induction s generalizing size with
  | nil => simp at h
  | cons c s ih =>
      by_cases hfits : (String.utf8EncodeChar c).length ≤ size
      · rw [encode_cons, List.length_append] at h
        obtain ⟨p, d, rest, rfl, hp, hd⟩ := ih (Nat.sub_lt_left_of_lt_add hfits h)
        refine ⟨c :: p, d, rest, rfl, ?_, ?_⟩
        · rw [encode_cons, List.length_append]
          omega
        · rw [List.cons_append, encode_cons, List.length_append]
          omega
      · refine ⟨[], c, s, rfl, Nat.zero_le _, ?_⟩
        simpa [encode_cons] using hfits

theorem decodeLossy_take {size : Nat} {p rest : List Char} {c : Char}
    (hfits : (encode p).length ≤ size) (hnext : size < (encode (p ++ [c])).length) :
    decodeLossy ((encode (p ++ c :: rest)).take size) =
      p ++ if (encode p).length < size then ['\uFFFD'] else [] := by
  have hsize : size - (encode p).length < (String.utf8EncodeChar c).length := by
    rw [encode_append, encode_cons, encode_nil, List.append_nil, List.length_append] at hnext
    omega
  rw [encode_append, encode_cons, List.take_append, List.take_of_length_le hfits,
    List.take_append_of_le_length (Nat.le_of_lt hsize),
    decodeLossy_cut p (List.take_append_drop (size - (encode p).length) _).symm]
  · have hne : String.utf8EncodeChar c ≠ [] := List.ne_nil_of_length_pos (Nat.zero_lt_of_lt hsize)
    by_cases h : (encode p).length < size
    · have hpart : (String.utf8EncodeChar c).take (size - (encode p).length) ≠ [] := by
        simp [List.take_eq_nil_iff, hne, Nat.sub_eq_zero_iff_le, h]
      rw [if_pos h, if_neg hpart]
    · rw [if_neg h, Nat.sub_eq_zero_of_le (Nat.not_lt.mp h), List.take_zero, if_pos rfl]
  · simpa [List.drop_eq_nil_iff] using hsize

end Utf8

open Utf8

/-- The preview of a text is the text, or if its bytes are too many the longest beginning that fits,
a mark if that leaves room for some bytes of the next character, and three dots. -/
theorem preview_encode (s : List Char) : ∃ p, LongestWithin 512 s p ∧
    preview (encode s) =
      if (encode s).length ≤ 512 then s
      else p ++ (if (encode p).length < 512 then ['\uFFFD'] else []) ++ ['.', '.', '.'] := by
  by_cases h : (encode s).length ≤ 512
  · refine ⟨s, .whole h, ?_⟩
    rw [if_pos h, preview, previewSize, List.take_of_length_le h, if_neg (Nat.not_lt.mpr h),
      decodeLossy_encode, List.append_nil]
  · obtain ⟨p, c, rest, rfl, hfits, hnext⟩ := exists_longestWithin (Nat.not_le.mp h)
    refine ⟨p, .of_next hfits hnext, ?_⟩
    rw [if_neg h, preview, previewSize, if_pos (Nat.not_le.mp h), decodeLossy_take hfits hnext]

end SpanStore.Text
