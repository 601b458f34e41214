import Mathlib.Algebra.Group.Nat.Defs
import Mathlib.Data.List.Nodup
import SpanStore.Net.Address
import SpanStore.Proofs.Text.Hex
import SpanStore.Proofs.Text.Split
import SpanStore.Proofs.Traversal

namespace SpanStore.Net.Address

section Numbers

def hexFrom? (n : Nat) (s : List Char) : Option Nat :=
  (s.mapM hexValue?).map fun ds => ds.foldl (fun n d => n * 16 + d) n

theorem hexFrom?_cons (n : Nat) (c : Char) (s : List Char) :
    hexFrom? n (c :: s) = (hexValue? c).bind fun d => hexFrom? (n * 16 + d) s := by
  cases hc : hexValue? c with
  | none => simp [hexFrom?, hc]
  | some d => cases hs : s.mapM hexValue? <;> simp [hexFrom?, hc, hs]

theorem hexFrom?_append (n : Nat) (s t : List Char) :
    hexFrom? n (s ++ t) = (hexFrom? n s).bind fun m => hexFrom? m t := by
  induction s generalizing n with
  | nil => simp [hexFrom?]
  | cons c s ih =>
      rw [List.cons_append, hexFrom?_cons, hexFrom?_cons]
      cases hexValue? c with
      | none => rfl
      | some d => exact ih _

theorem hexFrom?_lt {n m : Nat} {s : List Char} (h : hexFrom? n s = some m) :
    m < (n + 1) * 16 ^ s.length := by
  induction s generalizing n with
  | nil =>
      obtain rfl : n = m := by simpa [hexFrom?] using h
      simp
  | cons c s ih =>
      rw [hexFrom?_cons] at h
      obtain ⟨d, hd, hm⟩ := Option.bind_eq_some_iff.mp h
      have hdigit := (Text.hexValue?_eq_some hd).2
      calc m < (n * 16 + d + 1) * 16 ^ s.length := ih hm
        _ ≤ (n + 1) * 16 * 16 ^ s.length := Nat.mul_le_mul_right _ (by omega)
        _ = (n + 1) * 16 ^ (s.length + 1) := by rw [Nat.pow_succ', Nat.mul_assoc]

theorem hexFrom?_hexDigits (n : Nat) {width k : Nat} (h : k < 16 ^ width) :
    hexFrom? n (hexDigits width k) = some (n * 16 ^ width + k) := by
  induction width generalizing k with
  | zero =>
      obtain rfl : k = 0 := by simpa using h
      simp [hexDigits, hexFrom?]
  | succ width ih =>
      have hquotient : k / 16 < 16 ^ width := Nat.div_lt_of_lt_mul (by rwa [← Nat.pow_succ'])
      have hdigit := Text.hexValue?_digitChar (k % 16) (Nat.mod_lt k (by decide))
      rw [hexDigits, hexFrom?_append, ih hquotient, Option.bind_some, hexFrom?_cons, hdigit]
      have hvalue : (n * 16 ^ width + k / 16) * 16 + k % 16 = n * 16 ^ (width + 1) + k := by
        rw [Nat.pow_succ, Nat.add_mul, Nat.mul_assoc, Nat.add_assoc, Nat.div_add_mod']
      simp [hexFrom?, hvalue]

theorem hexFrom?_dropWhile (s : List Char) :
    hexFrom? 0 (s.dropWhile (· == '0')) = hexFrom? 0 s := by
  induction s with
  | nil => rfl
  | cons c s ih =>
      rw [List.dropWhile_cons]
      split
      · rename_i hc
        rw [beq_iff_eq.mp hc, ih, hexFrom?_cons]
        rfl
      · rfl

end Numbers

section Parts

theorem group?_eq_some_iff {t : List Char} {g : Nat} :
    group? t = some g ↔ t ≠ [] ∧ t.length ≤ 4 ∧ hexFrom? 0 t = some g := by
  have hvalue : group? t = if t.isEmpty || 4 < t.length then none else hexFrom? 0 t := rfl
  rw [hvalue]
  split_ifs with h
  · rw [Bool.or_eq_true, List.isEmpty_iff, decide_eq_true_eq] at h
    refine ⟨nofun, fun h' => ?_⟩
    exact absurd (h.resolve_left h'.1) (Nat.not_lt.mpr h'.2.1)
  · simp only [Bool.or_eq_true, List.isEmpty_iff, decide_eq_true_eq, not_or] at h
    simp [h.1, Nat.not_lt.mp h.2]

theorem group?_hexDigits {n : Nat} (h : n < 65536) : group? (hexDigits 4 n) = some n := by
  refine group?_eq_some_iff.mpr ⟨?_, Nat.le_of_eq (Text.length_hexDigits 4 n), ?_⟩
  · exact List.ne_nil_of_length_pos (by rw [Text.length_hexDigits]; decide)
  · rw [hexFrom?_hexDigits 0 h, Nat.zero_mul, Nat.zero_add]

theorem group?_groupText {n : Nat} (h : n < 65536) : group? (groupText n) = some n := by
  have hvalue := hexFrom?_dropWhile (hexDigits 4 n)
  rw [hexFrom?_hexDigits 0 h, Nat.zero_mul, Nat.zero_add] at hvalue
  rw [groupText]
  split
  · rename_i hdigits
    rw [hdigits] at hvalue
    obtain rfl : 0 = n := Option.some.inj hvalue
    rfl
  · refine group?_eq_some_iff.mpr ⟨by assumption, ?_, hvalue⟩
    exact Nat.le_trans (List.dropWhile_sublist _).length_le
      (Nat.le_of_eq (Text.length_hexDigits 4 n))

theorem group?_lt {t : List Char} {g : Nat} (h : group? t = some g) : g < 65536 := by
  obtain ⟨-, hlength, hvalue⟩ := group?_eq_some_iff.mp h
  calc g < (0 + 1) * 16 ^ t.length := hexFrom?_lt hvalue
    _ ≤ (0 + 1) * 16 ^ 4 := Nat.mul_le_mul_left _ (Nat.pow_le_pow_right (by decide) hlength)

theorem isSome_hexValue?_of_hexFrom? {t : List Char} {n m : Nat} (h : hexFrom? n t = some m)
    {c : Char} (hc : c ∈ t) : (hexValue? c).isSome := by
  obtain ⟨ds, hds, -⟩ := Option.map_eq_some_iff.mp h
  obtain ⟨d, -, hd⟩ := exists_read (mapM_eq_some_iff.mp hds) hc
  rw [hd]
  rfl

theorem isSome_hexValue?_of_group? {t : List Char} {g : Nat} (h : group? t = some g) {c : Char}
    (hc : c ∈ t) : (hexValue? c).isSome :=
  isSome_hexValue?_of_hexFrom? (group?_eq_some_iff.mp h).2.2 hc

theorem octet?_eq_some {t : List Char} {n : Nat} (h : octet? t = some n) :
    n ≤ 255 ∧ ∀ c ∈ t, c.isDigit = true := by
  unfold octet? at h
  dsimp only at h
  split_ifs at h with hshape hzero hbound
  obtain rfl := Option.some.inj h
  simp only [Bool.or_eq_true, not_or, Bool.not_eq_true', Bool.not_eq_false] at hshape
  exact ⟨Nat.not_lt.mp hbound, List.all_eq_true.mp hshape.1.2⟩

theorem octets?_eq_some {t : List Char} {os : List Nat} (h : octets? t = some os) :
    os.length = 4 ∧ (∀ o ∈ os, o ≤ 255) ∧ '.' ∈ t ∧ ∀ c ∈ t, c.isDigit = true ∨ c = '.' := by
  unfold octets? at h
  dsimp only at h
  split_ifs at h with hlength
  have hparts := mapM_eq_some_iff.mp h
  refine ⟨?_, fun o ho => ?_, ?_, fun c hc => ?_⟩
  · have hcount := congrArg List.length hparts
    rw [List.length_map, List.length_map] at hcount
    rw [← hcount, hlength]
  · obtain ⟨part, -, hpart⟩ := exists_source hparts ho
    exact (octet?_eq_some hpart).1
  · by_contra hdot
    rw [List.splitOn_eq_singleton hdot] at hlength
    cases hlength
  · have hall := Text.forall_mem_intercalate (P := fun c => c.isDigit = true ∨ c = '.') (d := '.')
      (.inr rfl) fun part hpart c hc => by
        obtain ⟨o, -, ho⟩ := exists_read hparts hpart
        exact .inl ((octet?_eq_some ho).2 c hc)
    rw [List.intercalate_splitOn] at hall
    exact hall c hc

end Parts

def Writes (ts : List (List Char)) (gs : List Nat) : Prop := ts.map group? = gs.map some

section Writes

variable {ts us : List (List Char)} {gs hs : List Nat}

theorem Writes.length_eq (h : Writes ts gs) : ts.length = gs.length := by
  simpa using congrArg List.length h

theorem Writes.append (h : Writes ts gs) (h' : Writes us hs) : Writes (ts ++ us) (gs ++ hs) := by
  rw [Writes, List.map_append, List.map_append, h, h']

theorem Writes.split {gs : List Nat} (h : Writes (ts ++ us) gs) :
    ∃ gs' hs, gs = gs' ++ hs ∧ Writes ts gs' ∧ Writes us hs := by
  rw [Writes, List.map_append, eq_comm, List.map_eq_append_iff] at h
  obtain ⟨gs', hs, rfl, hts, hus⟩ := h
  exact ⟨gs', hs, rfl, hts.symm, hus.symm⟩

theorem Writes.exists_group (h : Writes ts gs) {t : List Char} (ht : t ∈ ts) :
    ∃ g, group? t = some g := by
  obtain ⟨g, -, hg⟩ := exists_read h ht
  exact ⟨g, hg⟩

theorem Writes.ne_nil (h : Writes ts gs) {t : List Char} (ht : t ∈ ts) : t ≠ [] := by
  obtain ⟨g, hg⟩ := h.exists_group ht
  exact (group?_eq_some_iff.mp hg).1

theorem Writes.lt (h : Writes ts gs) {g : Nat} (hg : g ∈ gs) : g < 65536 := by
  obtain ⟨t, -, ht⟩ := exists_source h hg
  exact group?_lt ht

theorem mapM_group?_iff : ts.mapM group? = some gs ↔ Writes ts gs := mapM_eq_some_iff

theorem writes_groupText (h : ∀ g ∈ gs, g < 65536) : Writes (gs.map groupText) gs := by
  rw [Writes, List.map_map]
  exact List.map_congr_left fun g hg => group?_groupText (h g hg)

end Writes

/-- Texts between colons and the groups that they stand for. -/
inductive GroupTexts : List (List Char) → List Nat → Prop where
  | plain {ts : List (List Char)} {gs : List Nat} (h : Writes ts gs) : GroupTexts ts gs
  | dotted {ts : List (List Char)} {gs : List Nat} {t : List Char} {a b c d : Nat}
      (h : Writes ts gs) (ht : octets? t = some [a, b, c, d]) :
      GroupTexts (ts ++ [t]) (gs ++ [a * 256 + b, c * 256 + d])

def joined (ts : List (List Char)) : List Char := [':'].intercalate ts

def filled (high low : List Nat) : List Nat :=
  high ++ List.replicate (8 - (high.length + low.length)) 0 ++ low

/-- The spellings of eight groups. -/
inductive GroupsText : List Char → List Nat → Prop where
  | whole {ts : List (List Char)} {gs : List Nat} (h : GroupTexts ts gs) (hlength : gs.length = 8) :
      GroupsText (joined ts) gs
  | gap {his los : List (List Char)} {high low : List Nat} (hhigh : Writes his high)
      (hlow : GroupTexts los low) (hroom : high.length + low.length < 8) :
      GroupsText (joined his ++ ':' :: ':' :: joined los) (filled high low)

def isGroupChar (c : Char) : Bool := (hexValue? c).isSome || c == ':' || c == '.'

section Characters

theorem isGroupChar_of_isDigit {c : Char} (h : c.isDigit = true) : isGroupChar c = true := by
  rw [isGroupChar, hexValue?, if_pos h]
  rfl

theorem isGroupChar_of_group? {t : List Char} {g : Nat} (h : group? t = some g) :
    ∀ c ∈ t, isGroupChar c = true := by
  intro c hc
  rw [isGroupChar, isSome_hexValue?_of_group? h hc]
  rfl

theorem Writes.isGroupChar {ts : List (List Char)} {gs : List Nat} (h : Writes ts gs) :
    ∀ t ∈ ts, ∀ c ∈ t, isGroupChar c = true := by
  intro t ht
  obtain ⟨g, hg⟩ := h.exists_group ht
  exact isGroupChar_of_group? hg

theorem GroupTexts.isGroupChar {ts : List (List Char)} {gs : List Nat} (h : GroupTexts ts gs) :
    ∀ t ∈ ts, ∀ c ∈ t, isGroupChar c = true := by
  cases h with
  | plain h => exact h.isGroupChar
  | dotted h ht =>
      rw [List.forall_mem_append, List.forall_mem_singleton]
      refine ⟨h.isGroupChar, fun c hc => ?_⟩
      rcases (octets?_eq_some ht).2.2.2 c hc with hdigit | rfl
      · exact isGroupChar_of_isDigit hdigit
      · decide

theorem GroupsText.isGroupChar {s : List Char} {gs : List Nat} (h : GroupsText s gs) :
    ∀ c ∈ s, isGroupChar c = true := by
  have hcolon : Address.isGroupChar ':' = true := by decide
  cases h with
  | whole h hlength => exact Text.forall_mem_intercalate hcolon h.isGroupChar
  | gap hhigh hlow hroom =>
      rw [List.forall_mem_append, List.forall_mem_cons, List.forall_mem_cons]
      exact ⟨Text.forall_mem_intercalate hcolon hhigh.isGroupChar, hcolon, hcolon,
        Text.forall_mem_intercalate hcolon hlow.isGroupChar⟩

theorem GroupsText.not_mem {s : List Char} {gs : List Nat} (h : GroupsText s gs) {c : Char}
    (hc : Address.isGroupChar c = false) : c ∉ s := by
  intro hmem
  rw [h.isGroupChar c hmem] at hc
  cases hc

end Characters

section Last

/-- What stands for the last part: two groups for four octets. -/
def unfolded? (t : List Char) : Option (List (List Char)) :=
  if t.contains '.' then
    match octets? t with
    | some [a, b, c, d] => some [hexDigits 4 (a * 256 + b), hexDigits 4 (c * 256 + d)]
    | _ => none
  else some [t]

theorem colonParts?_of_split {s t : List Char} {ts : List (List Char)}
    (h : s.splitOn ':' = ts ++ [t]) :
    colonParts? s = if ts.length < 2 then none else (unfolded? t).map (ts ++ ·) := by
  rw [colonParts?, h]
  simp only [List.length_append, List.length_singleton, List.getLastD_concat,
    List.dropLast_concat, unfolded?]
  have hcount : ts.length + 1 < 3 ↔ ts.length < 2 := by omega
  simp only [hcount]
  split_ifs with hshort hdot
  · rfl
  · split <;> simp_all
  · rfl

theorem unfolded?_dotted {t : List Char} {a b c d : Nat} (h : octets? t = some [a, b, c, d]) :
    unfolded? t = some [hexDigits 4 (a * 256 + b), hexDigits 4 (c * 256 + d)] := by
  have hdot : t.contains '.' = true := List.contains_iff_mem.mpr (octets?_eq_some h).2.2.1
  rw [unfolded?, if_pos hdot, h]

theorem writes_octets {t : List Char} {a b c d : Nat} (h : octets? t = some [a, b, c, d]) :
    Writes [hexDigits 4 (a * 256 + b), hexDigits 4 (c * 256 + d)]
      [a * 256 + b, c * 256 + d] := by
  obtain ⟨-, hle, -⟩ := octets?_eq_some h
  have hgroup {m n : Nat} (hm : m ∈ [a, b, c, d]) (hn : n ∈ [a, b, c, d]) :
      group? (hexDigits 4 (m * 256 + n)) = some (m * 256 + n) := by
    have hm := hle m hm
    have hn := hle n hn
    exact group?_hexDigits (by omega)
  have hfirst := hgroup (m := a) (n := b) (by simp) (by simp)
  have hsecond := hgroup (m := c) (n := d) (by simp) (by simp)
  rw [Writes, List.map_cons, List.map_singleton, hfirst, hsecond]
  rfl

theorem unfolded?_cases {t : List Char} {us : List (List Char)} (h : unfolded? t = some us) :
    us = [t] ∧ '.' ∉ t ∨ ∃ a b c d, octets? t = some [a, b, c, d] ∧
      us = [hexDigits 4 (a * 256 + b), hexDigits 4 (c * 256 + d)] := by
  unfold unfolded? at h
  split_ifs at h with hdot
  · split at h
    · exact .inr ⟨_, _, _, _, by assumption, (Option.some.inj h).symm⟩
    · cases h
  · exact .inl ⟨(Option.some.inj h).symm, fun hmem => hdot (List.contains_iff_mem.mpr hmem)⟩

theorem unfolded?_ne_nil {t : List Char} {us : List (List Char)} (h : unfolded? t = some us) :
    us ≠ [] := by
  rcases unfolded?_cases h with ⟨rfl, -⟩ | ⟨_, _, _, _, -, rfl⟩
  · exact List.cons_ne_nil _ _
  · exact List.cons_ne_nil _ _

theorem dot_not_mem {t : List Char} {g : Nat} (h : group? t = some g) : '.' ∉ t := by
  intro hdot
  have hvalue : (hexValue? '.').isSome = true := isSome_hexValue?_of_group? h hdot
  exact absurd hvalue (by decide)

theorem groupTexts_concat_iff {ts : List (List Char)} {t : List Char} {gs : List Nat} :
    GroupTexts (ts ++ [t]) gs ↔ ∃ us, unfolded? t = some us ∧ Writes (ts ++ us) gs := by
  constructor
  · generalize hall : ts ++ [t] = all
    intro h
    cases h with
    | plain h =>
        subst hall
        obtain ⟨g, hg⟩ := h.exists_group (List.mem_append_right ts (List.mem_singleton_self t))
        have hdot : t.contains '.' = false := by
          rw [← Bool.not_eq_true, List.contains_iff_mem]
          exact dot_not_mem hg
        exact ⟨[t], by rw [unfolded?, hdot]; rfl, h⟩
    | dotted h ht =>
        obtain ⟨rfl, hlast⟩ := List.append_inj' hall rfl
        obtain rfl := List.singleton_inj.mp hlast
        exact ⟨_, unfolded?_dotted ht, h.append (writes_octets ht)⟩
  · rintro ⟨us, hus, h⟩
    rcases unfolded?_cases hus with ⟨rfl, -⟩ | ⟨a, b, c, d, ht, rfl⟩
    · exact .plain h
    · obtain ⟨gs', hs, rfl, hts, htail⟩ := h.split
      obtain rfl : hs = [a * 256 + b, c * 256 + d] := by
        have hboth : hs.map some = [a * 256 + b, c * 256 + d].map some :=
          htail.symm.trans (writes_octets ht)
        exact List.map_injective_iff.mpr (fun _ _ => Option.some.inj) hboth
      exact .dotted hts ht

end Last

section Gap

/-- The parts on one side of a gap. A side without groups has one empty part. -/
def side : List (List Char) → List (List Char)
  | [] => [[]]
  | ts => ts

theorem side_of_ne_nil {ts : List (List Char)} (h : ts ≠ []) : side ts = ts := by
  cases ts with
  | nil => exact absurd rfl h
  | cons t ts => rfl

theorem side_ne_nil (ts : List (List Char)) : side ts ≠ [] := by
  cases ts <;> exact List.cons_ne_nil _ _

def readParts? (parts : List (List Char)) : Option (List Nat) :=
  if 9 < parts.length then none
  else
    match innerGaps parts with
    | [] => if parts.length = 8 then parts.mapM group? else none
    | [gap] => do
        let high ← (beforeGap? (parts.take gap)).bind (List.mapM group?)
        let low ← (afterGap? (parts.drop (gap + 1))).bind (List.mapM group?)
        if high.length + low.length < 8 then
          some (high ++ List.replicate (8 - (high.length + low.length)) 0 ++ low)
        else none
    | _ => none

theorem groups?_eq (s : List Char) : groups? s = (colonParts? s).bind readParts? := rfl

theorem mem_innerGaps {parts : List (List Char)} {i : Nat} : i ∈ innerGaps parts ↔
    ∃ before after, parts = before ++ [] :: after ∧ before.length = i ∧ before ≠ [] ∧
      after ≠ [] := by
  rw [innerGaps, List.mem_filter, List.mem_range]
  simp only [Bool.and_eq_true, decide_eq_true_eq, List.isEmpty_iff]
  constructor
  · rintro ⟨hi, ⟨hfirst, hlast⟩, hempty⟩
    rw [List.getD_eq_getElem?_getD, List.getElem?_eq_getElem hi, Option.getD_some] at hempty
    refine ⟨parts.take i, parts.drop (i + 1), ?_, List.length_take_of_le (Nat.le_of_lt hi), ?_, ?_⟩
    · rw [← hempty, ← List.drop_eq_getElem_cons hi, List.take_append_drop]
    · refine List.ne_nil_of_length_pos ?_
      rwa [List.length_take_of_le (Nat.le_of_lt hi)]
    · exact List.ne_nil_of_length_pos (by rw [List.length_drop]; omega)
  · rintro ⟨before, after, rfl, rfl, hbefore, hafter⟩
    have hfirst := List.length_pos_iff.mpr hbefore
    have hlast := List.length_pos_iff.mpr hafter
    refine ⟨?_, ⟨hfirst, ?_⟩, ?_⟩
    · simp
    · simp only [List.length_append, List.length_cons]
      omega
    · simp

theorem innerGaps_of_writes {ts : List (List Char)} {gs : List Nat} (h : Writes ts gs) :
    innerGaps ts = [] := by
  rw [List.eq_nil_iff_forall_not_mem]
  intro i hi
  obtain ⟨before, after, rfl, -⟩ := mem_innerGaps.mp hi
  exact h.ne_nil (List.mem_append_right before List.mem_cons_self) rfl

theorem side_split {ts before after : List (List Char)} (hts : [] ∉ ts)
    (h : side ts = before ++ [] :: after) : before = [] ∧ after = [] := by
  by_cases hempty : ts = []
  · subst hempty
    have hlength := congrArg List.length h
    simp only [side, List.length_append, List.length_cons, List.length_nil] at hlength
    exact ⟨List.eq_nil_of_length_eq_zero (by omega), List.eq_nil_of_length_eq_zero (by omega)⟩
  · rw [side_of_ne_nil hempty] at h
    exact absurd (h ▸ List.mem_append_right before List.mem_cons_self) hts

theorem innerGaps_sides {his los : List (List Char)} (hhis : [] ∉ his) (hlos : [] ∉ los) :
    innerGaps (side his ++ [] :: side los) = [(side his).length] := by
  have hnodup : (innerGaps (side his ++ [] :: side los)).Nodup := List.nodup_range.filter _
  rw [← List.perm_singleton, List.perm_ext_iff_of_nodup hnodup (List.nodup_singleton _)]
  intro i
  rw [mem_innerGaps, List.mem_singleton]
  constructor
  · rintro ⟨before, after, hparts, rfl, hbefore, hafter⟩
    -- an empty part of either side is all of that side, so it lies at an end of the parts
    rcases List.append_eq_append_iff.mp hparts with ⟨rest, rfl, hrest⟩ | ⟨rest, hside, hrest⟩
    · cases rest with
      | nil => simp
      | cons t rest =>
          obtain ⟨rfl, hlow⟩ := List.cons.inj hrest
          exact absurd (side_split hlos hlow).2 hafter
    · cases rest with
      | nil => simp [hside]
      | cons t rest =>
          obtain ⟨rfl, -⟩ := List.cons.inj hrest
          exact absurd (side_split hhis hside).1 hbefore
  · rintro rfl
    exact ⟨_, _, rfl, rfl, side_ne_nil his, side_ne_nil los⟩

theorem beforeGap?_eq_some_iff {ts : List (List Char)} {gs : List Nat} (h : ts ≠ []) :
    (beforeGap? ts).bind (List.mapM group?) = some gs ↔ ∃ his, ts = side his ∧ Writes his gs := by
  constructor
  · intro hread
    unfold beforeGap? at hread
    split at hread
    · rename_i rest
      split_ifs at hread with hrest
      · obtain rfl := List.isEmpty_iff.mp hrest
        exact ⟨[], rfl, mapM_group?_iff.mp hread⟩
      · cases hread
    · exact ⟨ts, (side_of_ne_nil h).symm, mapM_group?_iff.mp hread⟩
  · rintro ⟨his, rfl, hwrites⟩
    cases his with
    | nil => exact mapM_group?_iff.mpr hwrites
    | cons t his =>
        have ht := hwrites.ne_nil List.mem_cons_self
        cases t with
        | nil => exact absurd rfl ht
        | cons c t => exact mapM_group?_iff.mpr hwrites

theorem afterGap?_eq_some_iff {ts : List (List Char)} {gs : List Nat} (h : ts ≠ []) :
    (afterGap? ts).bind (List.mapM group?) = some gs ↔ ∃ los, ts = side los ∧ Writes los gs := by
  have hlast : ts.getLastD ['0'] = ts.getLast h := by
    rw [List.getLastD_eq_getLast?, List.getLast?_eq_some_getLast h]
    rfl
  rw [afterGap?, hlast]
  constructor
  · intro hread
    split_ifs at hread with hempty hone
    · obtain ⟨t, rfl⟩ := List.length_eq_one_iff.mp hone
      obtain rfl : t = [] := List.isEmpty_iff.mp hempty
      exact ⟨[], rfl, mapM_group?_iff.mp hread⟩
    · cases hread
    · exact ⟨ts, (side_of_ne_nil h).symm, mapM_group?_iff.mp hread⟩
  · rintro ⟨los, rfl, hwrites⟩
    cases los with
    | nil => exact mapM_group?_iff.mpr hwrites
    | cons t los =>
        have hne := hwrites.ne_nil (List.getLast_mem (List.cons_ne_nil t los))
        have hfull : ((t :: los).getLast (List.cons_ne_nil t los)).isEmpty = false := by
          rwa [← Bool.not_eq_true, List.isEmpty_iff]
        change ((if ((t :: los).getLast _).isEmpty then _ else _ : Option _).bind _) = _
        rw [hfull]
        exact mapM_group?_iff.mpr hwrites

theorem Writes.nil_not_mem {ts : List (List Char)} {gs : List Nat} (h : Writes ts gs) : [] ∉ ts :=
  fun hnil => h.ne_nil hnil rfl

theorem length_side_le {ts : List (List Char)} {gs : List Nat} (h : Writes ts gs) :
    (side ts).length ≤ max 1 gs.length := by
  cases ts with
  | nil => exact Nat.le_max_left _ _
  | cons t ts => exact Nat.le_trans (Nat.le_of_eq h.length_eq) (Nat.le_max_right _ _)

theorem readParts?_eq_some_iff {parts : List (List Char)} {gs : List Nat} :
    readParts? parts = some gs ↔ Writes parts gs ∧ gs.length = 8 ∨
      ∃ his los high low, parts = side his ++ [] :: side los ∧ Writes his high ∧ Writes los low ∧
        high.length + low.length < 8 ∧ gs = filled high low := by
  constructor
  · intro h
    by_cases hcount : 9 < parts.length
    · rw [readParts?, if_pos hcount] at h
      cases h
    rw [readParts?, if_neg hcount] at h
    split at h
    · split_ifs at h with hlength
      have hwrites := mapM_group?_iff.mp h
      exact .inl ⟨hwrites, hwrites.length_eq ▸ hlength⟩
    · rename_i gap hgap
      obtain ⟨before, after, rfl, rfl, hbefore, hafter⟩ :=
        mem_innerGaps.mp (hgap ▸ List.mem_singleton_self gap)
      simp only [List.take_left, List.drop_length_add_append, List.drop_one, List.tail_cons] at h
      obtain ⟨high, hhigh, hrest⟩ := Option.bind_eq_some_iff.mp h
      obtain ⟨low, hlow, hresult⟩ := Option.bind_eq_some_iff.mp hrest
      split_ifs at hresult with hroom
      obtain ⟨his, rfl, hhis⟩ := (beforeGap?_eq_some_iff hbefore).mp hhigh
      obtain ⟨los, rfl, hlos⟩ := (afterGap?_eq_some_iff hafter).mp hlow
      exact .inr ⟨his, los, high, low, rfl, hhis, hlos, hroom, (Option.some.inj hresult).symm⟩
    · cases h
  · rintro (⟨hwrites, hlength⟩ | ⟨his, los, high, low, rfl, hhis, hlos, hroom, rfl⟩)
    · rw [readParts?, hwrites.length_eq, hlength, innerGaps_of_writes hwrites]
      exact mapM_group?_iff.mpr hwrites
    · have hhigh := (beforeGap?_eq_some_iff (side_ne_nil his)).mpr ⟨his, rfl, hhis⟩
      have hlow := (afterGap?_eq_some_iff (side_ne_nil los)).mpr ⟨los, rfl, hlos⟩
      have hcount : ¬ 9 < (side his ++ [] :: side los).length := by
        have := length_side_le hhis
        have := length_side_le hlos
        rw [List.length_append, List.length_cons]
        omega
      rw [readParts?, if_neg hcount, innerGaps_sides hhis.nil_not_mem hlos.nil_not_mem]
      simp only [List.take_left, List.drop_length_add_append, List.drop_one, List.tail_cons]
      rw [hhigh, hlow]
      simp [hroom, filled]

end Gap

section Joined

theorem joined_cons (t : List Char) {us : List (List Char)} (hus : us ≠ []) :
    joined (t :: us) = t ++ ':' :: joined us := by
  rw [joined, List.intercalate_cons_of_ne_nil hus, List.append_assoc]
  rfl

theorem joined_append {ts us : List (List Char)} (hts : ts ≠ []) (hus : us ≠ []) :
    joined (ts ++ us) = joined ts ++ ':' :: joined us := by
  induction ts with
  | nil => exact absurd rfl hts
  | cons t ts ih =>
      by_cases hrest : ts = []
      · subst hrest
        have hone : joined [t] = t := List.intercalate_singleton
        rw [List.singleton_append, joined_cons t hus, hone]
      · rw [List.cons_append, joined_cons t (List.append_ne_nil_of_left_ne_nil hrest us), ih hrest,
          joined_cons t hrest]
        simp

theorem joined_side (ts : List (List Char)) : joined (side ts) = joined ts := by
  cases ts <;> rfl

theorem joined_gap {ts us : List (List Char)} (hts : ts ≠ []) (hus : us ≠ []) :
    joined (ts ++ [] :: us) = joined ts ++ ':' :: ':' :: joined us := by
  rw [joined_append hts (List.cons_ne_nil _ _), joined_cons [] hus]
  rfl

theorem splitOn_joined {ts : List (List Char)} (h : ∀ t ∈ ts, ':' ∉ t) :
    (joined ts).splitOn ':' = side ts := by
  cases ts with
  | nil => exact List.splitOn_nil ':'
  | cons t ts => exact List.splitOn_intercalate ':' h (List.cons_ne_nil t ts)

theorem Writes.colon_not_mem {ts : List (List Char)} {gs : List Nat} (h : Writes ts gs)
    {t : List Char} (ht : t ∈ ts) : ':' ∉ t := by
  intro hcolon
  obtain ⟨g, hg⟩ := h.exists_group ht
  have hvalue : (hexValue? ':').isSome = true := isSome_hexValue?_of_group? hg hcolon
  exact absurd hvalue (by decide)

theorem colon_not_mem_octets {t : List Char} {os : List Nat} (h : octets? t = some os) :
    ':' ∉ t := by
  intro hcolon
  obtain ⟨-, -, -, hall⟩ := octets?_eq_some h
  exact absurd (hall ':' hcolon) (by decide)

theorem GroupTexts.colon_not_mem {ts : List (List Char)} {gs : List Nat} (h : GroupTexts ts gs) :
    ∀ t ∈ ts, ':' ∉ t := by
  cases h with
  | plain h => exact fun t => h.colon_not_mem
  | dotted h ht =>
      rw [List.forall_mem_append, List.forall_mem_singleton]
      exact ⟨fun t => h.colon_not_mem, colon_not_mem_octets ht⟩

theorem GroupTexts.length_le {ts : List (List Char)} {gs : List Nat} (h : GroupTexts ts gs) :
    gs.length ≤ ts.length + 1 := by
  cases h with
  | plain h => exact Nat.le_succ_of_le (Nat.le_of_eq h.length_eq.symm)
  | dotted h ht => simp [h.length_eq]

theorem GroupTexts.eq_nil {ts : List (List Char)} {gs : List Nat} (h : GroupTexts ts gs)
    (hts : ts = []) : gs = [] := by
  cases h with
  | plain h => exact List.eq_nil_of_length_eq_zero (by rw [← h.length_eq, hts]; rfl)
  | dotted h ht => simp at hts

theorem splitOn_gap {his los : List (List Char)} {high low : List Nat} (hhigh : Writes his high)
    (hlow : GroupTexts los low) :
    (joined his ++ ':' :: ':' :: joined los).splitOn ':' = side his ++ [] :: side los := by
  have hempty : (':' :: joined los).splitOn ':' = [] :: (joined los).splitOn ':' :=
    List.splitOn_append_cons_self [] (joined los)
  rw [List.splitOn_append_cons_self, hempty, splitOn_joined fun t => hhigh.colon_not_mem,
    splitOn_joined hlow.colon_not_mem]

end Joined

theorem groups?_of_split {s t : List Char} {ts us : List (List Char)} {gs : List Nat}
    (hsplit : s.splitOn ':' = ts ++ [t]) (hmany : 2 ≤ ts.length) (hus : unfolded? t = some us)
    (h : readParts? (ts ++ us) = some gs) : groups? s = some gs := by
  rw [groups?_eq, colonParts?_of_split hsplit, if_neg (Nat.not_lt.mpr hmany), hus]
  exact h

theorem groups?_joined {ts : List (List Char)} {gs : List Nat} (h : GroupTexts ts gs)
    (hlength : gs.length = 8) : groups? (joined ts) = some gs := by
  have hcount := h.length_le
  rcases List.eq_nil_or_concat' ts with rfl | ⟨ts, t, rfl⟩
  · rw [hlength] at hcount
    exact absurd hcount (by decide)
  · obtain ⟨us, hus, hwrites⟩ := groupTexts_concat_iff.mp h
    have hsplit := splitOn_joined h.colon_not_mem
    rw [side_of_ne_nil (List.append_ne_nil_of_right_ne_nil ts (List.cons_ne_nil t []))] at hsplit
    refine groups?_of_split hsplit ?_ hus (readParts?_eq_some_iff.mpr (.inl ⟨hwrites, hlength⟩))
    rw [List.length_append, List.length_singleton] at hcount
    omega

theorem groups?_gap {his los : List (List Char)} {high low : List Nat} (hhigh : Writes his high)
    (hlow : GroupTexts los low) (hroom : high.length + low.length < 8) :
    groups? (joined his ++ ':' :: ':' :: joined los) = some (filled high low) := by
  have hsplit := splitOn_gap hhigh hlow
  have hside := List.length_pos_iff.mpr (side_ne_nil his)
  rcases List.eq_nil_or_concat' los with rfl | ⟨mid, t, rfl⟩
  · obtain rfl := hlow.eq_nil rfl
    have hsplit' : (joined his ++ ':' :: ':' :: joined []).splitOn ':' =
        (side his ++ [[]]) ++ [[]] := by
      rw [hsplit, List.append_assoc]
      rfl
    refine groups?_of_split hsplit' ?_ rfl (readParts?_eq_some_iff.mpr (.inr
      ⟨his, [], high, [], List.append_assoc _ _ _, hhigh, rfl, hroom, rfl⟩))
    rw [List.length_append, List.length_singleton]
    omega
  · obtain ⟨us, hus, hwrites⟩ := groupTexts_concat_iff.mp hlow
    have hne := unfolded?_ne_nil hus
    rw [side_of_ne_nil (List.append_ne_nil_of_right_ne_nil mid (List.cons_ne_nil t [])),
      ← List.cons_append, ← List.append_assoc] at hsplit
    refine groups?_of_split hsplit ?_ hus (readParts?_eq_some_iff.mpr (.inr
      ⟨his, mid ++ us, high, low, ?_, hhigh, hwrites, hroom, rfl⟩))
    · rw [List.length_append, List.length_cons]
      omega
    · rw [side_of_ne_nil (List.append_ne_nil_of_right_ne_nil mid hne), List.append_assoc,
        List.cons_append]

theorem unfolded?_shape {t : List Char} {us : List (List Char)} (h : unfolded? t = some us) :
    us = [t] ∨ [] ∉ us := by
  rcases unfolded?_cases h with ⟨rfl, -⟩ | ⟨a, b, c, d, ht, rfl⟩
  · exact .inl rfl
  · exact .inr (writes_octets ht).nil_not_mem

theorem exists_rest_of_sides {ts us los : List (List Char)} {his : List (List Char)} {t : List Char}
    (hus : unfolded? t = some us) (h : ts ++ us = side his ++ [] :: side los) :
    ∃ rest, ts = side his ++ [] :: rest ∧ side los = rest ++ us := by
  rw [List.append_cons] at h
  rcases List.append_eq_append_iff.mp h with ⟨rest, hts, hrest⟩ | ⟨rest, hts, hrest⟩
  · rcases List.eq_nil_or_concat' rest with rfl | ⟨front, last, rfl⟩
    · exact ⟨[], by simpa using hts.symm, hrest.symm⟩
    · -- an empty part and a part after it cannot both stand for the last one
      rw [← List.append_assoc] at hts
      obtain ⟨-, hlast⟩ := List.append_inj' hts rfl
      obtain rfl : [] = last := List.singleton_inj.mp hlast
      rcases unfolded?_shape hus with rfl | hfull
      · have hlength := congrArg List.length hrest
        have hside := List.length_pos_iff.mpr (side_ne_nil los)
        simp only [List.length_append, List.length_singleton] at hlength
        omega
      · rw [hrest] at hfull
        simp at hfull
  · exact ⟨rest, by simpa using hts, hrest⟩

/-- Eight groups are read from exactly their spellings. -/
theorem groups?_eq_some_iff {s : List Char} {gs : List Nat} :
    groups? s = some gs ↔ GroupsText s gs := by
  constructor
  · intro h
    have hne := List.splitOn_ne_nil ':' s
    have hsplit := (List.dropLast_concat_getLast hne).symm
    have hs : joined (s.splitOn ':') = s := List.intercalate_splitOn ':'
    generalize (s.splitOn ':').dropLast = ts at hsplit
    generalize (s.splitOn ':').getLast hne = t at hsplit
    rw [groups?_eq, colonParts?_of_split hsplit] at h
    obtain ⟨parts, hparts, hread⟩ := Option.bind_eq_some_iff.mp h
    split_ifs at hparts
    obtain ⟨us, hus, rfl⟩ := Option.map_eq_some_iff.mp hparts
    rw [← hs, hsplit]
    rcases readParts?_eq_some_iff.mp hread with
      ⟨hwrites, hlength⟩ | ⟨his, los, high, low, hsides, hhis, hlos, hroom, rfl⟩
    · exact .whole (groupTexts_concat_iff.mpr ⟨us, hus, hwrites⟩) hlength
    · obtain ⟨rest, rfl, hrest⟩ := exists_rest_of_sides hus hsides
      rw [List.append_assoc, List.cons_append, joined_gap (side_ne_nil his) (by simp), joined_side]
      by_cases hempty : los = []
      · subst hempty
        rcases List.append_eq_singleton_iff.mp hrest.symm with ⟨rfl, rfl⟩ | ⟨-, rfl⟩
        · rcases unfolded?_shape hus with htext | hfull
          · obtain rfl := List.singleton_inj.mp htext
            have hspelling := GroupsText.gap hhis (.plain hlos) hroom
            exact hspelling
          · exact absurd (List.mem_singleton_self []) hfull
        · exact absurd rfl (unfolded?_ne_nil hus)
      · rw [side_of_ne_nil hempty] at hrest
        subst hrest
        exact .gap hhis (groupTexts_concat_iff.mpr ⟨us, hus, hlos⟩) hroom
  · intro h
    cases h with
    | whole h hlength => exact groups?_joined h hlength
    | gap hhigh hlow hroom => exact groups?_gap hhigh hlow hroom

end SpanStore.Net.Address
