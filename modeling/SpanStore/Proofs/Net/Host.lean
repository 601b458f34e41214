import SpanStore.Net.Url
import SpanStore.Proofs.Net.AddressText
import SpanStore.Proofs.Text.Lower

namespace SpanStore.Net

namespace Address

theorem hexValue?_toLower {c : Char} (h : c.toNat < 0x80) : hexValue? c.toLower = hexValue? c := by
  have hall : ∀ n < 0x80, hexValue? (Char.ofNat n).toLower = hexValue? (Char.ofNat n) := by decide
  have hc := hall c.toNat h
  rwa [Char.ofNat_toNat] at hc

theorem ascii_of_hexValue? {c : Char} (h : (hexValue? c).isSome = true) : c.toNat < 0x80 := by
  obtain ⟨d, hd⟩ := Option.isSome_iff_exists.mp h
  exact (Text.hexValue?_eq_some hd).1

theorem ascii_of_isGroupChar {c : Char} (h : isGroupChar c = true) : c.toNat < 0x80 := by
  simp only [isGroupChar, Bool.or_eq_true, beq_iff_eq] at h
  rcases h with (h | rfl) | rfl
  · exact ascii_of_hexValue? h
  · decide
  · decide

section Lowered

def lowerLetters (t : List Char) : List Char := t.map Char.toLower

variable {ts : List (List Char)} {gs : List Nat}

theorem hexFrom?_lowerLetters {n m : Nat} {t : List Char} (h : hexFrom? n t = some m) :
    hexFrom? n (lowerLetters t) = some m := by
  obtain ⟨ds, hds, hvalue⟩ := Option.map_eq_some_iff.mp h
  refine Option.map_eq_some_iff.mpr ⟨ds, mapM_eq_some_iff.mpr ?_, hvalue⟩
  rw [← mapM_eq_some_iff.mp hds, lowerLetters, List.map_map]
  exact List.map_congr_left fun c hc =>
    hexValue?_toLower (ascii_of_hexValue? (isSome_hexValue?_of_hexFrom? h hc))

theorem group?_lowerLetters {t : List Char} {g : Nat} (h : group? t = some g) :
    group? (lowerLetters t) = some g := by
  obtain ⟨hne, hlength, hvalue⟩ := group?_eq_some_iff.mp h
  refine group?_eq_some_iff.mpr ⟨?_, ?_, hexFrom?_lowerLetters hvalue⟩
  · rwa [lowerLetters, ne_eq, List.map_eq_nil_iff]
  · rwa [lowerLetters, List.length_map]

theorem Writes.lower (h : Writes ts gs) : Writes (ts.map lowerLetters) gs := by
  rw [Writes, List.map_map, ← h]
  refine List.map_congr_left fun t ht => ?_
  obtain ⟨g, hg⟩ := h.exists_group ht
  exact (group?_lowerLetters hg).trans hg.symm

theorem lowerLetters_octets {t : List Char} {os : List Nat} (h : octets? t = some os) :
    lowerLetters t = t := by
  obtain ⟨-, -, -, hall⟩ := octets?_eq_some h
  refine (List.map_congr_left fun c hc => ?_).trans (List.map_id t)
  rcases hall c hc with hdigit | rfl
  · have hbounds : 48 ≤ c.toNat ∧ c.toNat ≤ 57 := Char.isDigit_iff_toNat.mp hdigit
    have hdigits : ∀ n < 58, 48 ≤ n → (Char.ofNat n).toLower = Char.ofNat n := by decide
    have hc := hdigits c.toNat (by omega) hbounds.1
    rwa [Char.ofNat_toNat] at hc
  · rfl

theorem GroupTexts.lower (h : GroupTexts ts gs) : GroupTexts (ts.map lowerLetters) gs := by
  cases h with
  | plain h => exact .plain h.lower
  | dotted h ht =>
      rw [List.map_append, List.map_singleton, lowerLetters_octets ht]
      exact .dotted h.lower ht

theorem lowerLetters_joined (ts : List (List Char)) :
    lowerLetters (joined ts) = joined (ts.map lowerLetters) := by
  induction ts with
  | nil => rfl
  | cons t ts ih =>
      by_cases hts : ts = []
      · subst hts
        simp [joined, List.intercalate_singleton]
      · have hmap : ts.map lowerLetters ≠ [] := by rwa [ne_eq, List.map_eq_nil_iff]
        rw [joined_cons t hts, List.map_cons, joined_cons _ hmap, ← ih, lowerLetters,
          List.map_append, List.map_cons]
        rfl

theorem GroupsText.lower {s : List Char} (h : GroupsText s gs) :
    GroupsText (lowerLetters s) gs := by
  cases h with
  | whole h hlength =>
      rw [lowerLetters_joined]
      exact .whole h.lower hlength
  | @gap his los high low hhigh hlow hroom =>
      have hgap : lowerLetters (joined his ++ ':' :: ':' :: joined los) =
          joined (his.map lowerLetters) ++ ':' :: ':' :: joined (los.map lowerLetters) := by
        rw [← lowerLetters_joined, ← lowerLetters_joined]
        exact List.map_append
      rw [hgap]
      exact .gap hhigh.lower hlow.lower hroom

end Lowered

end Address

namespace Url

def lowerHost (s : List Char) : List Char :=
  match Text.cut (· == '%') s with
  | (name, none) => Text.lowerFrom [] name
  | (name, some zone) => Text.lowerFrom [] name ++ '%' :: zone

theorem toList_host (u : Url) : u.host.toList = lowerHost u.hostAndPort.1 := by
  rw [host, lowerHost]
  rcases Text.cut (· == '%') u.hostAndPort.1 with ⟨name, _ | zone⟩
  · exact Text.toList_lower name
  · rw [String.toList_append, Text.toList_lower, String.toList_ofList]

section Host

variable {s : List Char}

theorem percent_not_mem {name : List Char} (h : '%' ∉ name) : '%' ∉ Text.lowerFrom [] name := by
  intro hmem
  rcases (Text.mem_lowerFrom hmem).2 with hname | htarget
  · exact h hname
  · exact absurd htarget (by decide +kernel)

theorem lowerHost_of_plain (h : '%' ∉ s) : lowerHost s = Text.lowerFrom [] s := by
  have hcut := Text.cut_of_forall fun c hc => beq_false_of_ne (ne_of_mem_of_not_mem hc h)
  rw [lowerHost, hcut]

theorem lowerHost_of_zone {name : List Char} (h : '%' ∉ name) (zone : List Char) :
    lowerHost (name ++ '%' :: zone) = Text.lowerFrom [] name ++ '%' :: zone := by
  have hcut := Text.cut_append_cons
    (fun c hc => beq_false_of_ne (ne_of_mem_of_not_mem hc h)) (beq_self_eq_true '%') zone
  rw [lowerHost, hcut]

theorem zone_cases (s : List Char) :
    '%' ∉ s ∨ ∃ name zone, s = name ++ '%' :: zone ∧ '%' ∉ name := by
  by_cases h : '%' ∈ s
  · exact .inr (List.eq_append_cons_of_mem h)
  · exact .inl h

theorem mem_lowerHost {d : Char} (h : d ∈ lowerHost s) : d ∈ s ∨ Text.IsTarget d.toNat := by
  rcases zone_cases s with hplain | ⟨name, zone, rfl, hname⟩
  · rw [lowerHost_of_plain hplain] at h
    exact (Text.mem_lowerFrom h).2
  · rw [lowerHost_of_zone hname] at h
    rcases List.mem_append.mp h with h | h
    · exact (Text.mem_lowerFrom h).2.imp_left (List.mem_append_left _)
    · exact .inl (List.mem_append_right _ h)

theorem lowerHost_ne_nil (h : s ≠ []) : lowerHost s ≠ [] := by
  rcases zone_cases s with hplain | ⟨name, zone, rfl, hname⟩
  · rw [lowerHost_of_plain hplain]
    exact Text.lowerFrom_ne_nil h
  · rw [lowerHost_of_zone hname]
    exact List.append_ne_nil_of_right_ne_nil _ (List.cons_ne_nil _ _)

theorem lowerHost_lowerHost (s : List Char) : lowerHost (lowerHost s) = lowerHost s := by
  rcases zone_cases s with hplain | ⟨name, zone, rfl, hname⟩
  · rw [lowerHost_of_plain hplain, lowerHost_of_plain (percent_not_mem hplain),
      Text.lowerFrom_lowerFrom]
  · rw [lowerHost_of_zone hname, lowerHost_of_zone (percent_not_mem hname),
      Text.lowerFrom_lowerFrom]

theorem lowerHost_append {front rest : List Char} (hascii : ∀ c ∈ front, c.toNat < 0x80)
    (hpercent : '%' ∉ front) (hrest : rest ≠ []) :
    ∃ rest', rest' ≠ [] ∧
      lowerHost (front ++ rest) = Address.lowerLetters front ++ rest' := by
  rcases zone_cases rest with hplain | ⟨name, zone, rfl, hname⟩
  · refine ⟨Text.lowerFrom (front.reverse ++ []) rest, Text.lowerFrom_ne_nil hrest, ?_⟩
    rw [lowerHost_of_plain (List.not_mem_append hpercent hplain), Text.lowerFrom_append hascii]
    rfl
  · refine ⟨Text.lowerFrom (front.reverse ++ []) name ++ '%' :: zone,
      List.append_ne_nil_of_right_ne_nil _ (List.cons_ne_nil '%' zone), ?_⟩
    rw [← List.append_assoc, lowerHost_of_zone (List.not_mem_append hpercent hname),
      Text.lowerFrom_append hascii, List.append_assoc]
    rfl

theorem isFutureAddress_iff : isFutureAddress s = true ↔ ∃ version rest,
    s = 'v' :: version ++ '.' :: rest ∧ version ≠ [] ∧ rest ≠ [] ∧
      ∀ c ∈ version, (Address.hexValue? c).isSome = true := by
  constructor
  · intro h
    unfold isFutureAddress at h
    split at h
    · split at h
      · rename_i hcut
        obtain ⟨⟨d, hd, rfl⟩, -⟩ := Text.cut_eq_some hcut
        obtain rfl := beq_iff_eq.mp hd
        rw [Bool.and_eq_true, Bool.not_eq_true', List.isEmpty_eq_false_iff, List.all_eq_true] at h
        exact ⟨_, _, rfl, h.1, List.cons_ne_nil _ _, h.2⟩
      · cases h
    · cases h
  · rintro ⟨version, rest, rfl, hversion, hrest, hhex⟩
    have hcut : Text.cut (· == '.') (version ++ '.' :: rest) = (version, some rest) := by
      refine Text.cut_append_cons (fun c hc => beq_false_of_ne ?_) rfl rest
      rintro rfl
      exact absurd (hhex '.' hc) (by decide)
    cases rest with
    | nil => exact absurd rfl hrest
    | cons c rest =>
        rw [List.cons_append, isFutureAddress, hcut]
        simp only [Bool.and_eq_true, Bool.not_eq_true', List.isEmpty_eq_false_iff, List.all_eq_true]
        exact ⟨hversion, hhex⟩

theorem head_ne_of_spells {groups : List Nat} {zone : Option (List Char)}
    (h : Address.Spells s (.v6 groups zone)) : (s.head? == some 'v') = false := by
  refine beq_false_of_ne fun hhead => ?_
  obtain ⟨t, rfl⟩ := List.head?_eq_some_iff.mp hhead
  generalize hs : 'v' :: t = s at h
  cases h with
  | v6 h => exact h.not_mem (by decide) (hs ▸ List.mem_cons_self)
  | @zoned text groups zone h =>
      cases text with
      | nil => cases hs
      | cons c text =>
          obtain ⟨rfl, -⟩ := List.cons.inj hs
          exact h.not_mem (by decide) List.mem_cons_self

theorem isBracketed_iff : isBracketed s = true ↔
    isFutureAddress s = true ∨ ∃ groups zone, Address.Spells s (.v6 groups zone) := by
  constructor
  · intro h
    unfold isBracketed at h
    split at h
    · exact .inl h
    · split at h
      · exact .inr ⟨_, _, Address.parse?_eq_some_iff.mp (by assumption)⟩
      · cases h
  · rintro (h | ⟨groups, zone, h⟩)
    · obtain ⟨version, rest, rfl, -⟩ := isFutureAddress_iff.mp h
      exact h
    · rw [isBracketed, head_ne_of_spells h, Address.parse?_eq_some_iff.mpr h]
      rfl

theorem isFutureAddress_lowerHost (h : isFutureAddress s = true) :
    isFutureAddress (lowerHost s) = true := by
  obtain ⟨version, rest, rfl, hversion, hrest, hhex⟩ := isFutureAddress_iff.mp h
  have hascii : ∀ c ∈ 'v' :: version ++ ['.'], c.toNat < 0x80 := by
    simp only [List.cons_append, List.forall_mem_cons, List.forall_mem_append]
    exact ⟨by decide, fun c hc => Address.ascii_of_hexValue? (hhex c hc), by decide,
      List.forall_mem_nil _⟩
  have hpercent : '%' ∉ 'v' :: version ++ ['.'] := by
    simp only [List.cons_append, List.mem_cons, List.mem_append, List.not_mem_nil, or_false]
    rintro (hv | hmem | hdot)
    · cases hv
    · exact absurd (hhex '%' hmem) (by decide)
    · cases hdot
  obtain ⟨rest', hrest', hlower⟩ := lowerHost_append hascii hpercent hrest
  refine isFutureAddress_iff.mpr ⟨Address.lowerLetters version, rest', ?_, ?_, hrest', ?_⟩
  · rw [List.append_cons, hlower, Address.lowerLetters, List.map_append, List.append_assoc]
    rfl
  · rwa [Address.lowerLetters, ne_eq, List.map_eq_nil_iff]
  · rw [Address.lowerLetters, List.forall_mem_map]
    intro c hc
    rw [Address.hexValue?_toLower (Address.ascii_of_hexValue? (hhex c hc))]
    exact hhex c hc

theorem spells_lowerHost {groups : List Nat} {zone : Option (List Char)}
    (h : Address.Spells s (.v6 groups zone)) : Address.Spells (lowerHost s) (.v6 groups zone) := by
  have hlower {text : List Char} (h : Address.GroupsText text groups) :
      '%' ∉ text ∧ Text.lowerFrom [] text = Address.lowerLetters text :=
    ⟨h.not_mem (by decide), Text.lowerFrom_ascii
      (fun c hc => Address.ascii_of_isGroupChar (h.isGroupChar c hc)) []⟩
  cases h with
  | v6 h =>
      rw [lowerHost_of_plain (hlower h).1, (hlower h).2]
      exact .v6 h.lower
  | zoned h hzone hpercent hslash =>
      rw [lowerHost_of_zone (hlower h).1, (hlower h).2]
      exact .zoned h.lower hzone hpercent hslash

theorem isBracketed_lowerHost (h : isBracketed s = true) : isBracketed (lowerHost s) = true := by
  rcases isBracketed_iff.mp h with hfuture | ⟨groups, zone, hspells⟩
  · exact isBracketed_iff.mpr (.inl (isFutureAddress_lowerHost hfuture))
  · exact isBracketed_iff.mpr (.inr ⟨groups, zone, spells_lowerHost hspells⟩)

end Host

end Url

end SpanStore.Net
