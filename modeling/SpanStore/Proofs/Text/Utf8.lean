import SpanStore.Text.Utf8

namespace SpanStore.Text.Utf8

@[simp] theorem encode_nil : encode [] = [] := rfl

@[simp] theorem encode_append (s t : List Char) : encode (s ++ t) = encode s ++ encode t :=
  List.flatMap_append

theorem encode_cons (c : Char) (s : List Char) :
    encode (c :: s) = String.utf8EncodeChar c ++ encode s := rfl

theorem encode_intercalate (c : Char) (ts : List (List Char)) :
    encode ([c].intercalate ts) = (String.utf8EncodeChar c).intercalate (ts.map encode) := by
  induction ts with
  | nil => rfl
  | cons t ts ih =>
      cases ts with
      | nil => simp [List.intercalate_singleton]
      | cons u us =>
          rw [List.map_cons, List.map_cons, List.intercalate_cons_cons, List.intercalate_cons_cons,
            encode_append, encode_append, ih]
          simp [encode]

theorem toNat_lt_or_lt (c : Char) : c.toNat < 0xD800 ∨ 0xDFFF < c.toNat ∧ c.toNat < 0x110000 := by
  have hvalid := c.valid
  simp only [UInt32.isValidChar, Nat.isValidChar] at hvalid
  exact hvalid

theorem encodeChar_cases (c : Char) :
    (c.toNat < 0x80 ∧ String.utf8EncodeChar c = [UInt8.ofNat c.toNat]) ∨
    (0x80 ≤ c.toNat ∧ c.toNat < 0x800 ∧ String.utf8EncodeChar c =
      [UInt8.ofNat (c.toNat / 64 + 0xC0), UInt8.ofNat (c.toNat % 64 + 0x80)]) ∨
    (0x800 ≤ c.toNat ∧ c.toNat < 0x10000 ∧ String.utf8EncodeChar c =
      [UInt8.ofNat (c.toNat / 4096 + 0xE0), UInt8.ofNat (c.toNat / 64 % 64 + 0x80),
        UInt8.ofNat (c.toNat % 64 + 0x80)]) ∨
    (0x10000 ≤ c.toNat ∧ String.utf8EncodeChar c =
      [UInt8.ofNat (c.toNat / 262144 + 0xF0), UInt8.ofNat (c.toNat / 4096 % 64 + 0x80),
        UInt8.ofNat (c.toNat / 64 % 64 + 0x80), UInt8.ofNat (c.toNat % 64 + 0x80)]) := by
  have hbound := toNat_lt_or_lt c
  have hval : c.val.toNat = c.toNat := rfl
  unfold String.utf8EncodeChar
  simp only [hval]
  split
  · exact .inl ⟨by omega, rfl⟩
  · split
    · have hlead : c.toNat / 64 % 32 = c.toNat / 64 := by omega
      exact .inr (.inl ⟨by omega, by omega, by rw [hlead]⟩)
    · split
      · have hlead : c.toNat / 4096 % 16 = c.toNat / 4096 := by omega
        exact .inr (.inr (.inl ⟨by omega, by omega, by rw [hlead]⟩))
      · have hlead : c.toNat / 262144 % 8 = c.toNat / 262144 := by omega
        exact .inr (.inr (.inr ⟨by omega, by rw [hlead]⟩))

theorem toNat_ofNat_of_lt {n : Nat} (h : n < 256) : (UInt8.ofNat n).toNat = n :=
  UInt8.toNat_ofNat_of_lt' h

theorem ofNat_le_iff {n : Nat} (h : n < 256) (b : UInt8) : UInt8.ofNat n ≤ b ↔ n ≤ b.toNat := by
  rw [UInt8.le_iff_toNat_le, toNat_ofNat_of_lt h]

theorem le_ofNat_iff {n : Nat} (h : n < 256) (b : UInt8) : b ≤ UInt8.ofNat n ↔ b.toNat ≤ n := by
  rw [UInt8.le_iff_toNat_le, toNat_ofNat_of_lt h]

theorem ofNat_lt_iff {n : Nat} (h : n < 256) (b : UInt8) : UInt8.ofNat n < b ↔ n < b.toNat := by
  rw [UInt8.lt_iff_toNat_lt, toNat_ofNat_of_lt h]

theorem ofNat_eq_iff {n : Nat} (h : n < 256) (b : UInt8) : UInt8.ofNat n = b ↔ n = b.toNat := by
  rw [← UInt8.toNat_inj, toNat_ofNat_of_lt h]

theorem encodeChar_ascii {c : Char} (hc : c.toNat < 0x80) :
    String.utf8EncodeChar c = [UInt8.ofNat c.toNat] := by
  rcases encodeChar_cases c with ⟨-, he⟩ | ⟨h, -⟩ | ⟨h, -⟩ | ⟨h, -⟩
  · exact he
  · omega
  · omega
  · omega

theorem mem_encodeChar {b : UInt8} {c : Char} (h : b ∈ String.utf8EncodeChar c) :
    c.toNat < 0x80 ∧ b.toNat = c.toNat ∨ 0x80 ≤ c.toNat ∧ 0x80 ≤ b.toNat := by
  have hbound := toNat_lt_or_lt c
  have hbyte {n : Nat} (hn : n < 256) (hlow : 0x80 ≤ n) : 0x80 ≤ (UInt8.ofNat n).toNat := by
    rwa [toNat_ofNat_of_lt hn]
  rcases encodeChar_cases c with ⟨hc, he⟩ | ⟨hc, hc', he⟩ | ⟨hc, hc', he⟩ | ⟨hc, he⟩
  · rw [he, List.mem_singleton] at h
    subst h
    exact .inl ⟨hc, toNat_ofNat_of_lt (by omega)⟩
  · rw [he] at h
    simp only [List.mem_cons, List.not_mem_nil, or_false] at h
    rcases h with rfl | rfl <;> exact .inr ⟨hc, hbyte (by omega) (by omega)⟩
  · rw [he] at h
    simp only [List.mem_cons, List.not_mem_nil, or_false] at h
    rcases h with rfl | rfl | rfl <;> exact .inr ⟨by omega, hbyte (by omega) (by omega)⟩
  · rw [he] at h
    simp only [List.mem_cons, List.not_mem_nil, or_false] at h
    rcases h with rfl | rfl | rfl | rfl <;> exact .inr ⟨by omega, hbyte (by omega) (by omega)⟩

theorem step_start {ps : List (Option Char)} {n : Nat} {p : Pending} (hn : n < 256)
    (hhigh : 0x80 ≤ n) (hp : Pending.ofLead (UInt8.ofNat n) = some p) :
    Decoder.step ⟨ps, none⟩ (UInt8.ofNat n) = ⟨ps, some p⟩ := by
  have hlead : ¬ UInt8.ofNat n < 0x80 := by
    rw [ofNat_lt_iff hn]
    exact Nat.not_lt.mpr hhigh
  simp only [Decoder.step, Decoder.start, hlead, if_false, hp]

theorem step_lead_two (ps : List (Option Char)) {k : Nat} (hlow : 2 ≤ k) (hhigh : k < 32) :
    Decoder.step ⟨ps, none⟩ (UInt8.ofNat (k + 0xC0)) = ⟨ps, some ⟨1, 0x80, 0xBF, k⟩⟩ := by
  have hn : k + 0xC0 < 256 := by omega
  refine step_start hn (by omega) ?_
  simp only [Pending.ofLead, le_ofNat_iff hn, ofNat_le_iff hn, toNat_ofNat_of_lt hn,
    UInt8.toNat_ofNat]
  rw [if_pos (by omega), Nat.add_sub_cancel]

/-- The bounds on the byte after a lead byte keep out exactly what has a shorter form or is no
character. -/
theorem step_lead_three (ps : List (Option Char)) {k : Nat} (hk : k < 16) :
    ∃ low high : UInt8,
      Decoder.step ⟨ps, none⟩ (UInt8.ofNat (k + 0xE0)) = ⟨ps, some ⟨2, low, high, k⟩⟩ ∧
      low.toNat = (if k = 0 then 0xA0 else 0x80) ∧
      high.toNat = if k = 13 then 0x9F else 0xBF := by
  have hn : k + 0xE0 < 256 := by omega
  have hlead : Pending.ofLead (UInt8.ofNat (k + 0xE0)) = some
      ⟨2, if k = 0 then 0xA0 else 0x80, if k = 13 then 0x9F else 0xBF, k⟩ := by
    simp only [Pending.ofLead, le_ofNat_iff hn, ofNat_le_iff hn, ofNat_eq_iff hn,
      toNat_ofNat_of_lt hn, UInt8.toNat_ofNat]
    rw [if_neg (by omega)]
    by_cases hfirst : k = 0
    · subst k
      rfl
    · by_cases hlast : k = 13
      · subst k
        rfl
      · rw [if_neg (by omega), if_neg (by omega), if_pos (by omega), Nat.add_sub_cancel]
        simp [hfirst, hlast]
  refine ⟨_, _, step_start hn (by omega) hlead, ?_, ?_⟩ <;> split <;> rfl

theorem step_lead_four (ps : List (Option Char)) {k : Nat} (hk : k < 5) :
    ∃ low high : UInt8,
      Decoder.step ⟨ps, none⟩ (UInt8.ofNat (k + 0xF0)) = ⟨ps, some ⟨3, low, high, k⟩⟩ ∧
      low.toNat = (if k = 0 then 0x90 else 0x80) ∧
      high.toNat = if k = 4 then 0x8F else 0xBF := by
  have hn : k + 0xF0 < 256 := by omega
  have hlead : Pending.ofLead (UInt8.ofNat (k + 0xF0)) = some
      ⟨3, if k = 0 then 0x90 else 0x80, if k = 4 then 0x8F else 0xBF, k⟩ := by
    simp only [Pending.ofLead, le_ofNat_iff hn, ofNat_le_iff hn, ofNat_eq_iff hn,
      toNat_ofNat_of_lt hn, UInt8.toNat_ofNat]
    rw [if_neg (by omega), if_neg (by omega), if_neg (by omega), if_neg (by omega)]
    by_cases hfirst : k = 0
    · subst k
      rfl
    · by_cases hlast : k = 4
      · subst k
        rfl
      · rw [if_neg (by omega), if_pos (by omega), Nat.add_sub_cancel]
        simp [hfirst, hlast]
  refine ⟨_, _, step_start hn (by omega) hlead, ?_, ?_⟩ <;> split <;> rfl

theorem step_tail (ps : List (Option Char)) {owed value k : Nat} {low high : UInt8} (hk : k < 64)
    (hlow : low.toNat ≤ k + 0x80) (hhigh : k + 0x80 ≤ high.toNat) :
    Decoder.step ⟨ps, some ⟨owed, low, high, value⟩⟩ (UInt8.ofNat (k + 0x80)) =
      if owed = 1 then ⟨some (Char.ofNat (value * 64 + k)) :: ps, none⟩
      else ⟨ps, some ⟨owed - 1, 0x80, 0xBF, value * 64 + k⟩⟩ := by
  have hn : k + 0x80 < 256 := by omega
  have hmod : (k + 0x80) % 64 = k := by omega
  simp only [Decoder.step, le_ofNat_iff hn, ofNat_le_iff hn, toNat_ofNat_of_lt hn, hmod]
  rw [if_pos ⟨hlow, hhigh⟩]

/-- The decoder reads the bytes of a character as that character. -/
theorem foldl_step_encodeChar (ps : List (Option Char)) (c : Char) :
    (String.utf8EncodeChar c).foldl Decoder.step ⟨ps, none⟩ = ⟨some c :: ps, none⟩ := by
  have hbound := toNat_lt_or_lt c
  rcases encodeChar_cases c with ⟨h, he⟩ | ⟨h₁, h₂, he⟩ | ⟨h₁, h₂, he⟩ | ⟨h, he⟩
  · have hn : c.toNat < 256 := by omega
    have hsmall : UInt8.ofNat c.toNat < 0x80 := (ofNat_lt_iff hn _).mpr h
    rw [he]
    simp only [List.foldl_cons, List.foldl_nil, Decoder.step, Decoder.start, hsmall, if_true,
      toNat_ofNat_of_lt hn, Char.ofNat_toNat]
  · have hvalue : c.toNat / 64 * 64 + c.toNat % 64 = c.toNat := by omega
    rw [he, List.foldl_cons, step_lead_two ps (by omega) (by omega), List.foldl_cons,
      step_tail ps (by omega) (by simp) (by simp; omega), hvalue]
    simp
  · obtain ⟨low, high, hlead, hlow, hhigh⟩ :=
      step_lead_three ps (k := c.toNat / 4096) (by omega)
    have hvalue : (c.toNat / 4096 * 64 + c.toNat / 64 % 64) * 64 + c.toNat % 64 = c.toNat := by
      omega
    rw [he, List.foldl_cons, hlead, List.foldl_cons,
      step_tail ps (by omega) (by rw [hlow]; split <;> omega) (by rw [hhigh]; split <;> omega),
      if_neg (by omega), List.foldl_cons, step_tail ps (by omega) (by simp) (by simp; omega),
      hvalue]
    simp
  · obtain ⟨low, high, hlead, hlow, hhigh⟩ :=
      step_lead_four ps (k := c.toNat / 262144) (by omega)
    have hvalue : ((c.toNat / 262144 * 64 + c.toNat / 4096 % 64) * 64 + c.toNat / 64 % 64) * 64 +
        c.toNat % 64 = c.toNat := by
      omega
    rw [he, List.foldl_cons, hlead, List.foldl_cons,
      step_tail ps (by omega) (by rw [hlow]; split <;> omega) (by rw [hhigh]; split <;> omega),
      if_neg (by omega), List.foldl_cons, step_tail ps (by omega) (by simp) (by simp; omega),
      if_neg (by omega), List.foldl_cons, step_tail ps (by omega) (by simp) (by simp; omega),
      hvalue]
    simp

theorem foldl_step_encode (ps : List (Option Char)) (s : List Char) :
    (encode s).foldl Decoder.step ⟨ps, none⟩ = ⟨(s.map some).reverse ++ ps, none⟩ := by
  induction s generalizing ps with
  | nil => rfl
  | cons c s ih =>
      rw [encode_cons, List.foldl_append, foldl_step_encodeChar, ih]
      simp

@[simp] theorem pieces_encode (s : List Char) : pieces (encode s) = s.map some := by
  rw [pieces, foldl_step_encode]
  simp [Decoder.finish]

@[simp] theorem decode?_encode (s : List Char) : decode? (encode s) = some s := by
  simp [decode?]

end SpanStore.Text.Utf8
