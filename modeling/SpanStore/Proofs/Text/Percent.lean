import SpanStore.Proofs.Text.Hex
import SpanStore.Proofs.Text.Utf8
import SpanStore.Text.Percent

namespace SpanStore.Text.Percent

open Utf8

/-- ASCII, and none of the characters that divide a target. -/
def Undivided (c : Char) : Prop :=
  c.toNat < 0x80 ∧ c ≠ '/' ∧ c ≠ '?' ∧ c ≠ '#' ∧ c ≠ '&' ∧ c ≠ '='

instance : DecidablePred Undivided := fun c =>
  inferInstanceAs (Decidable (c.toNat < 0x80 ∧ c ≠ '/' ∧ c ≠ '?' ∧ c ≠ '#' ∧ c ≠ '&' ∧ c ≠ '='))

section Digits

theorem digit_undivided : ∀ n < 16, Undivided (digit n) ∧ digit n ≠ '+' := by decide

theorem hexValue?_digit : ∀ n < 16, hexValue? (digit n) = some n := by decide

theorem digits_lt (b : UInt8) : b.toNat / 16 < 16 ∧ b.toNat % 16 < 16 := by
  have hb := b.toNat_lt
  omega

theorem escape_undivided (b : UInt8) : ∀ c ∈ escape b, Undivided c ∧ c ≠ '+' := by
  obtain ⟨hhigh, hlow⟩ := digits_lt b
  intro c hc
  simp only [escape, List.mem_cons, List.not_mem_nil, or_false] at hc
  rcases hc with rfl | rfl | rfl
  · decide
  · exact digit_undivided _ hhigh
  · exact digit_undivided _ hlow

theorem decodeBytes?_escape (b : UInt8) (rest : List Char) :
    decodeBytes? (escape b ++ rest) = (decodeBytes? rest).map (b :: ·) := by
  obtain ⟨hhigh, hlow⟩ := digits_lt b
  have hvalue : b.toNat / 16 * 16 + b.toNat % 16 = b.toNat := by omega
  change decodeBytes? ('%' :: digit (b.toNat / 16) :: digit (b.toNat % 16) :: rest) = _
  rw [decodeBytes?, hexValue?_digit _ hhigh, hexValue?_digit _ hlow]
  cases decodeBytes? rest with
  | none => rfl
  | some bs => simp [hvalue]

end Digits

theorem decodeBytes?_ascii {c : Char} (hc : c.toNat < 0x80) (hpercent : c ≠ '%')
    (rest : List Char) :
    decodeBytes? (c :: rest) = (decodeBytes? rest).map (UInt8.ofNat c.toNat :: ·) := by
  rw [decodeBytes?.eq_def]
  split
  · rename_i h
    cases h
  · rename_i h
    exact absurd (List.cons.inj h).1 hpercent
  · rename_i h
    obtain ⟨rfl, rfl⟩ := List.cons.inj h
    have hkept : ¬ (c = '%' ∨ 0x80 ≤ c.toNat) := by
      rintro (h | h)
      · exact hpercent h
      · omega
    rw [if_neg hkept]

theorem kept_byte : ∀ n < 256, isSegmentByte (UInt8.ofNat n) = true →
    Undivided (Char.ofNat n) ∧ Char.ofNat n ≠ '%' ∧ Char.ofNat n ≠ '+' ∧
      (Char.ofNat n).toNat = n := by
  decide +kernel

theorem kept {b : UInt8} (h : isSegmentByte b = true) :
    Undivided (Char.ofNat b.toNat) ∧ Char.ofNat b.toNat ≠ '%' ∧ Char.ofNat b.toNat ≠ '+' ∧
      UInt8.ofNat (Char.ofNat b.toNat).toNat = b := by
  have hb : UInt8.ofNat b.toNat = b := UInt8.ofNat_toNat
  obtain ⟨hundivided, hpercent, hplus, hvalue⟩ := kept_byte b.toNat b.toNat_lt (by rwa [hb])
  exact ⟨hundivided, hpercent, hplus, by rw [hvalue, hb]⟩

theorem isSegmentByte_of_isUnreserved {b : UInt8} (h : isUnreserved b = true) :
    isSegmentByte b = true := by
  simp [isSegmentByte, h]

theorem decodeBytes?_kept {b : UInt8} (h : isSegmentByte b = true) (rest : List Char) :
    decodeBytes? (Char.ofNat b.toNat :: rest) = (decodeBytes? rest).map (b :: ·) := by
  obtain ⟨hundivided, hpercent, -, hvalue⟩ := kept h
  rw [decodeBytes?_ascii hundivided.1 hpercent, hvalue]

section Bytes

theorem segmentByte_undivided (b : UInt8) : ∀ c ∈ segmentByte b, Undivided c := by
  intro c hc
  unfold segmentByte at hc
  split at hc
  · rename_i h
    obtain rfl := List.mem_singleton.mp hc
    exact (kept h).1
  · exact (escape_undivided b c hc).1

theorem fieldByte_undivided (b : UInt8) : ∀ c ∈ fieldByte b, Undivided c := by
  intro c hc
  unfold fieldByte at hc
  split at hc
  · rename_i h
    obtain rfl := List.mem_singleton.mp hc
    exact (kept (isSegmentByte_of_isUnreserved h)).1
  split at hc
  · obtain rfl := List.mem_singleton.mp hc
    decide
  · exact (escape_undivided b c hc).1

theorem decodeBytes?_segmentByte (b : UInt8) (rest : List Char) :
    decodeBytes? (segmentByte b ++ rest) = (decodeBytes? rest).map (b :: ·) := by
  unfold segmentByte
  split
  · rename_i h
    exact decodeBytes?_kept h rest
  · exact decodeBytes?_escape b rest

def plusToSpace (c : Char) : Char := if c = '+' then ' ' else c

theorem map_plusToSpace {s : List Char} (h : ∀ c ∈ s, c ≠ '+') : s.map plusToSpace = s := by
  have hid : s.map plusToSpace = s.map id := List.map_congr_left fun c hc => if_neg (h c hc)
  rw [hid, List.map_id]

theorem decodeBytes?_fieldByte (b : UInt8) (rest : List Char) :
    decodeBytes? ((fieldByte b).map plusToSpace ++ rest) = (decodeBytes? rest).map (b :: ·) := by
  unfold fieldByte
  split
  · rename_i h
    obtain ⟨-, -, hplus, -⟩ := kept (isSegmentByte_of_isUnreserved h)
    rw [map_plusToSpace (by simpa using hplus)]
    exact decodeBytes?_kept (isSegmentByte_of_isUnreserved h) rest
  split
  · rename_i h
    subst h
    exact decodeBytes?_ascii (by decide) (by decide) rest
  · rw [map_plusToSpace fun c hc => (escape_undivided b c hc).2]
    exact decodeBytes?_escape b rest

end Bytes

theorem decodeBytes?_flatMap {f : UInt8 → List Char}
    (h : ∀ b rest, decodeBytes? (f b ++ rest) = (decodeBytes? rest).map (b :: ·))
    (bs : List UInt8) : decodeBytes? (bs.flatMap f) = some bs := by
  induction bs with
  | nil => rfl
  | cons b bs ih => rw [List.flatMap_cons, h, ih, Option.map_some]

@[simp] theorem decodeSegment?_encodeSegment (s : List Char) :
    decodeSegment? (encodeSegment s) = some s := by
  rw [decodeSegment?, encodeSegment, decodeBytes?_flatMap decodeBytes?_segmentByte]
  exact decode?_encode s

@[simp] theorem decodeField?_encodeField (s : List Char) :
    decodeField? (encodeField s) = some s := by
  have hmap : (encodeField s).map plusToSpace =
      (encode s).flatMap fun b => (fieldByte b).map plusToSpace := List.map_flatMap
  change decodeSegment? ((encodeField s).map plusToSpace) = _
  rw [hmap, decodeSegment?, decodeBytes?_flatMap decodeBytes?_fieldByte]
  exact decode?_encode s

theorem encodeSegment_undivided (s : List Char) : ∀ c ∈ encodeSegment s, Undivided c := by
  intro c hc
  obtain ⟨b, -, hb⟩ := List.mem_flatMap.mp hc
  exact segmentByte_undivided b c hb

theorem encodeField_undivided (s : List Char) : ∀ c ∈ encodeField s, Undivided c := by
  intro c hc
  obtain ⟨b, -, hb⟩ := List.mem_flatMap.mp hc
  exact fieldByte_undivided b c hb

end SpanStore.Text.Percent
