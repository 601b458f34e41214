import Mathlib.Data.Nat.Digits.Defs
import SpanStore.Proofs.Net.Groups
import SpanStore.Proofs.Net.Resolution

namespace SpanStore.Net

namespace Address

section Octets

theorem ofDigitChars_concat (t : List Char) (c : Char) :
    Nat.ofDigitChars 10 (t ++ [c]) 0 = 10 * Nat.ofDigitChars 10 t 0 + (c.toNat - 0x30) := by
  simp [Nat.ofDigitChars]

theorem digitChar_of_isDigit {c : Char} (h : c.isDigit = true) :
    c.toNat - 0x30 < 10 ∧ Nat.digitChar (c.toNat - 0x30) = c := by
  have hbounds : 48 ≤ c.toNat ∧ c.toNat ≤ 57 := Char.isDigit_iff_toNat.mp h
  have hlt : c.toNat - 0x30 < 10 := by omega
  refine ⟨hlt, Char.toNat_inj.mp ?_⟩
  rw [Nat.toNat_digitChar_of_lt_ten hlt]
  omega

theorem toDigits_ofDigitChars {t : List Char} (hdigits : ∀ c ∈ t, c.isDigit = true) (hne : t ≠ [])
    (hzero : ∀ rest, t = '0' :: rest → rest = []) :
    Nat.toDigits 10 (Nat.ofDigitChars 10 t 0) = t := by
  induction t using List.reverseRecOn with
  | nil => exact absurd rfl hne
  | append_singleton t c ih =>
      -- the digits before the last one are not those of zero, so they are the tenth of the number
      rw [List.forall_mem_append, List.forall_mem_singleton] at hdigits
      obtain ⟨hlt, hchar⟩ := digitChar_of_isDigit hdigits.2
      rw [ofDigitChars_concat]
      by_cases ht : t = []
      · subst ht
        have hone : 10 * Nat.ofDigitChars 10 [] 0 + (c.toNat - 0x30) = c.toNat - 0x30 :=
          Nat.zero_add _
        rw [hone, Nat.toDigits_of_lt_base hlt, hchar, List.nil_append]
      · have hfront := ih hdigits.1 ht fun rest hrest => by
          have hall := hzero (rest ++ [c]) (by rw [hrest, List.cons_append])
          exact absurd hall (List.append_ne_nil_of_right_ne_nil _ (List.cons_ne_nil c []))
        generalize Nat.ofDigitChars 10 t 0 = n at hfront
        have hpositive : n ≠ 0 := by
          rintro rfl
          have hall := hzero [c] (by rw [← hfront]; rfl)
          cases hall
        rw [Nat.toDigits_of_base_le (by decide) (by omega)]
        have hdiv : (10 * n + (c.toNat - 0x30)) / 10 = n := by omega
        have hmod : (10 * n + (c.toNat - 0x30)) % 10 = c.toNat - 0x30 := by omega
        rw [hdiv, hmod, hfront, hchar]

theorem octet?_toDigits {n : Nat} (h : n ≤ 255) : octet? (Nat.toDigits 10 n) = some n := by
  have hall : ∀ n < 256, octet? (Nat.toDigits 10 n) = some n := by decide +kernel
  exact hall n (Nat.lt_succ_of_le h)

theorem octet?_eq_some_iff {t : List Char} {n : Nat} :
    octet? t = some n ↔ n ≤ 255 ∧ t = Nat.toDigits 10 n := by
  constructor
  · intro h
    obtain ⟨hle, hdigits⟩ := octet?_eq_some h
    refine ⟨hle, ?_⟩
    unfold octet? at h
    dsimp only at h
    split_ifs at h with hshape hzero hbound
    obtain rfl := Option.some.inj h
    simp only [Bool.or_eq_true, not_or, List.isEmpty_iff] at hshape
    refine (toDigits_ofDigitChars hdigits hshape.1.1 ?_).symm
    rintro rest rfl
    cases rest with
    | nil => rfl
    | cons c rest => simp at hzero
  · rintro ⟨hle, rfl⟩
    exact octet?_toDigits hle

theorem dot_not_mem_toDigits (n : Nat) : '.' ∉ Nat.toDigits 10 n := by
  intro h
  have hdigit := Nat.isDigit_of_mem_toDigits (by decide) (by decide) h
  exact absurd hdigit (by decide)

theorem octets?_eq_some_iff {s : List Char} {os : List Nat} :
    octets? s = some os ↔ os.length = 4 ∧ (∀ o ∈ os, o ≤ 255) ∧
      s = ['.'].intercalate (os.map (Nat.toDigits 10)) := by
  constructor
  · intro h
    obtain ⟨hlength, hle, -⟩ := octets?_eq_some h
    refine ⟨hlength, hle, ?_⟩
    unfold octets? at h
    dsimp only at h
    split_ifs at h
    have hparts : s.splitOn '.' = os.map (Nat.toDigits 10) :=
      eq_map_of_mapM h fun part o ho => (octet?_eq_some_iff.mp ho).2
    rw [← hparts, List.intercalate_splitOn]
  · rintro ⟨hlength, hle, rfl⟩
    have hsplit : (['.'].intercalate (os.map (Nat.toDigits 10))).splitOn '.' =
        os.map (Nat.toDigits 10) := by
      refine List.splitOn_intercalate '.' ?_ ?_
      · rw [List.forall_mem_map]
        exact fun o _ => dot_not_mem_toDigits o
      · exact List.ne_nil_of_length_pos (by rw [List.length_map, hlength]; decide)
    rw [octets?, hsplit, List.length_map, if_pos hlength, mapM_eq_some_iff,
      List.map_map]
    exact List.map_congr_left fun o ho => octet?_toDigits (hle o ho)

end Octets

section Groups

variable {s : List Char} {gs : List Nat}

theorem GroupTexts.lt {ts : List (List Char)} (h : GroupTexts ts gs) : ∀ g ∈ gs, g < 65536 := by
  cases h with
  | plain h => exact fun g => h.lt
  | dotted h ht => exact fun g => (h.append (writes_octets ht)).lt

theorem GroupsText.length_eq (h : GroupsText s gs) : gs.length = 8 := by
  cases h with
  | whole h hlength => exact hlength
  | gap hhigh hlow hroom =>
      rw [filled, List.length_append, List.length_append, List.length_replicate]
      omega

theorem GroupsText.lt (h : GroupsText s gs) : ∀ g ∈ gs, g < 65536 := by
  cases h with
  | whole h hlength => exact h.lt
  | gap hhigh hlow hroom =>
      rw [filled, List.forall_mem_append, List.forall_mem_append]
      refine ⟨⟨fun g => hhigh.lt, fun g hg => ?_⟩, hlow.lt⟩
      rw [List.eq_of_mem_replicate hg]
      decide

def IsRun (gs : List Nat) (run : Nat × Nat) : Prop :=
  ∃ front back, gs = front ++ List.replicate run.2 0 ++ back ∧ front.length = run.1

theorem zeroRun_spec (gs : List Nat) :
    ∃ back, gs = List.replicate (zeroRun gs) 0 ++ back := by
  induction gs with
  | nil => exact ⟨[], rfl⟩
  | cons g gs ih =>
      cases g with
      | zero =>
          obtain ⟨back, hback⟩ := ih
          refine ⟨back, ?_⟩
          rw [zeroRun, List.replicate_succ, List.cons_append, ← hback]
      | succ g => exact ⟨(g + 1) :: gs, rfl⟩

theorem longestRun_isRun {front rest : List Nat} {best : Nat × Nat}
    (h : IsRun (front ++ rest) best) :
    IsRun (front ++ rest) (longestRun front.length best rest) := by
  induction rest generalizing front best with
  | nil => exact h
  | cons g rest ih =>
      -- a run that is longer than the best one begins where `front` ends
      have hplace : front.length + 1 = (front ++ [g]).length := by simp
      rw [longestRun, hplace, List.append_cons]
      refine ih ?_
      rw [← List.append_cons]
      split
      · obtain ⟨back, hback⟩ := zeroRun_spec (g :: rest)
        exact ⟨front, back, by rw [List.append_assoc, ← hback], rfl⟩
      · exact h

theorem groupsText_spells (hlength : gs.length = 8) (hlt : ∀ g ∈ gs, g < 65536) :
    GroupsText (groupsText gs) gs := by
  have hnone : IsRun ([] ++ gs) (0, 0) := ⟨[], gs, rfl, rfl⟩
  have hrun : IsRun gs (longestRun 0 (0, 0) gs) := longestRun_isRun hnone
  rw [groupsText]
  generalize longestRun 0 (0, 0) gs = run at hrun
  obtain ⟨start, length⟩ := run
  obtain ⟨front, back, rfl, rfl⟩ := hrun
  dsimp only at hlength hlt ⊢
  split
  · exact .whole (.plain (writes_groupText hlt)) hlength
  · have htake : (front ++ List.replicate length 0 ++ back).take front.length = front := by
      rw [List.append_assoc, List.take_left]
    have hdrop : (front ++ List.replicate length 0 ++ back).drop (front.length + length) = back :=
      List.drop_left' (by simp)
    simp only [List.length_append, List.length_replicate] at hlength
    have hfilled : filled front back = front ++ List.replicate length 0 ++ back := by
      rw [filled]
      congr 3
      omega
    simp only [List.forall_mem_append] at hlt
    rw [htake, hdrop, ← hfilled]
    exact .gap (writes_groupText hlt.1.1) (.plain (writes_groupText hlt.2)) (by omega)

end Groups

inductive Spells : List Char → Address → Prop where
  | v4 {octets : List Nat} (hlength : octets.length = 4) (hle : ∀ o ∈ octets, o ≤ 255) :
      Spells (['.'].intercalate (octets.map (Nat.toDigits 10))) (v4 octets)
  | v6 {s : List Char} {groups : List Nat} (h : GroupsText s groups) : Spells s (v6 groups none)
  | zoned {s : List Char} {groups : List Nat} {zone : List Char} (h : GroupsText s groups)
      (hzone : zone ≠ []) (hpercent : '%' ∉ zone) (hslash : '/' ∉ zone) :
      Spells (s ++ '%' :: zone) (v6 groups (some zone))

section Spells

variable {s t : List Char} {a b : Address}

theorem colon_mem_of_groups? {gs : List Nat} (h : groups? s = some gs) : ':' ∈ s := by
  by_contra hcolon
  have hsplit : s.splitOn ':' = [] ++ [s] := List.splitOn_eq_singleton hcolon
  rw [groups?_eq, colonParts?_of_split hsplit] at h
  cases h

theorem octets?_of_colon (h : ':' ∈ s) : octets? s = none := by
  rw [Option.eq_none_iff_forall_ne_some]
  exact fun os hos => colon_not_mem_octets hos h

theorem GroupsText.not_percent {gs : List Nat} (h : GroupsText s gs) :
    ∀ c ∈ s, (c == '%') = false :=
  fun _ hc => beq_false_of_ne (ne_of_mem_of_not_mem hc (h.not_mem (by decide)))

theorem spells_of_v6? (h : v6? s = some a) (hslash : '/' ∉ s) : Spells s a := by
  unfold v6? at h
  split at h
  · rename_i text hcut
    obtain ⟨rfl, -⟩ := Text.cut_eq_none hcut
    obtain ⟨gs, hgs, rfl⟩ := Option.map_eq_some_iff.mp h
    exact .v6 (groups?_eq_some_iff.mp hgs)
  · rename_i text zone hcut
    obtain ⟨⟨d, hd, rfl⟩, -⟩ := Text.cut_eq_some hcut
    obtain rfl := beq_iff_eq.mp hd
    split_ifs at h with hzone
    rw [Bool.or_eq_true, List.isEmpty_iff, List.contains_iff_mem, not_or] at hzone
    obtain ⟨gs, hgs, rfl⟩ := Option.map_eq_some_iff.mp h
    refine .zoned (groups?_eq_some_iff.mp hgs) hzone.1 hzone.2 fun hmem => hslash ?_
    exact List.mem_append_right _ (List.mem_cons_of_mem _ hmem)

/-- The reader accepts exactly the texts of addresses. -/
theorem parse?_eq_some_iff : parse? s = some a ↔ Spells s a := by
  constructor
  · intro h
    unfold parse? at h
    split_ifs at h with hslash
    rw [List.contains_iff_mem] at hslash
    cases hoctets : octets? s with
    | some os =>
        rw [hoctets] at h
        obtain rfl := Option.some.inj h
        obtain ⟨hlength, hle, rfl⟩ := octets?_eq_some_iff.mp hoctets
        exact .v4 hlength hle
    | none =>
        rw [hoctets] at h
        exact spells_of_v6? h hslash
  · intro h
    have hcolon {s : List Char} {gs : List Nat} (h : GroupsText s gs) : ':' ∈ s :=
      colon_mem_of_groups? (groups?_eq_some_iff.mpr h)
    cases h with
    | v4 hlength hle =>
        have hoctets := octets?_eq_some_iff.mpr ⟨hlength, hle, rfl⟩
        have hslash := (octets?_eq_some hoctets).2.2.2 '/'
        rw [parse?, if_neg fun hmem => ?_, hoctets]
        exact absurd (hslash (List.contains_iff_mem.mp hmem)) (by decide)
    | v6 h =>
        rw [parse?, if_neg fun hmem => ?_, octets?_of_colon (hcolon h)]
        · simp [v6?, Text.cut_of_forall h.not_percent, groups?_eq_some_iff.mpr h]
        · exact h.not_mem (by decide) (List.contains_iff_mem.mp hmem)
    | zoned h hzone hpercent hslash =>
        rw [parse?, if_neg fun hmem => ?_,
          octets?_of_colon (List.mem_append_left _ (hcolon h))]
        · simp [v6?, Text.cut_append_cons h.not_percent, groups?_eq_some_iff.mpr h, hzone, hpercent]
        · rcases List.mem_append.mp (List.contains_iff_mem.mp hmem) with hmem | hmem
          · exact h.not_mem (by decide) hmem
          · exact hslash ((List.mem_cons.mp hmem).resolve_left (by decide))

theorem Spells.text (h : Spells s a) : Spells a.text a := by
  cases h with
  | v4 hlength hle => exact .v4 hlength hle
  | v6 h => exact .v6 (groupsText_spells h.length_eq h.lt)
  | zoned h hzone hpercent hslash =>
      exact .zoned (groupsText_spells h.length_eq h.lt) hzone hpercent hslash

theorem Spells.unique (h : Spells s a) (h' : Spells s b) : a = b :=
  Option.some.inj ((parse?_eq_some_iff.mpr h).symm.trans (parse?_eq_some_iff.mpr h'))

end Spells

/-- The number that parts write, the highest first. -/
def number (base : Nat) (parts : List Nat) : Nat := Nat.ofDigits base parts.reverse

structure Meaning where
  version : Nat
  value : Nat
  zone : Option (List Char)

def meaning : Address → Meaning
  | v4 octets => ⟨4, number 256 octets, none⟩
  | v6 groups zone => ⟨6, number 65536 groups, zone⟩

section Meaning

theorem number_lt {base : Nat} {parts : List Nat} (hbase : 1 < base)
    (h : ∀ p ∈ parts, p < base) : number base parts < base ^ parts.length := by
  have hlt := Nat.ofDigits_lt_base_pow_length hbase fun p hp => h p (List.mem_reverse.mp hp)
  rwa [List.length_reverse] at hlt

theorem number_inj {base : Nat} {ps qs : List Nat} (hbase : 1 < base)
    (hlength : ps.length = qs.length) (hps : ∀ p ∈ ps, p < base) (hqs : ∀ q ∈ qs, q < base)
    (h : number base ps = number base qs) : ps = qs := by
  refine List.reverse_injective (Nat.ofDigits_inj_of_len_eq hbase ?_ ?_ ?_ h)
  · rw [List.length_reverse, List.length_reverse, hlength]
  · exact fun p hp => hps p (List.mem_reverse.mp hp)
  · exact fun q hq => hqs q (List.mem_reverse.mp hq)

variable {s t : List Char} {a b : Address}

theorem Spells.bounds (h : Spells s a) :
    a.meaning.version = 4 ∧ a.meaning.value < 2 ^ 32 ∧ a.meaning.zone = none ∨
      a.meaning.version = 6 ∧ a.meaning.value < 2 ^ 128 := by
  have hgroups {s : List Char} {gs : List Nat} (h : GroupsText s gs) :
      number 65536 gs < 2 ^ 128 := by
    have hlt := number_lt (by decide) h.lt
    rwa [h.length_eq] at hlt
  cases h with
  | @v4 octets hlength hle =>
      have hlt := number_lt (by decide) fun o ho => Nat.lt_succ_of_le (hle o ho)
      rw [hlength] at hlt
      exact .inl ⟨rfl, hlt, rfl⟩
  | v6 h => exact .inr ⟨rfl, hgroups h⟩
  | zoned h => exact .inr ⟨rfl, hgroups h⟩

/-- An address is determined by what it denotes. -/
theorem Spells.eq_of_meaning (h : Spells s a) (h' : Spells t b)
    (hmeaning : a.meaning = b.meaning) : a = b := by
  have hgroups {s t : List Char} {gs hs : List Nat} (h : GroupsText s gs) (h' : GroupsText t hs)
      (hvalue : number 65536 gs = number 65536 hs) : gs = hs :=
    number_inj (by decide) (h.length_eq.trans h'.length_eq.symm) h.lt h'.lt hvalue
  cases h with
  | v4 hlength hle =>
      cases h' with
      | v4 hlength' hle' =>
          rw [number_inj (by decide) (hlength.trans hlength'.symm)
            (fun o ho => Nat.lt_succ_of_le (hle o ho)) (fun o ho => Nat.lt_succ_of_le (hle' o ho))
            (congrArg Meaning.value hmeaning)]
      | v6 _ => cases congrArg Meaning.version hmeaning
      | zoned _ => cases congrArg Meaning.version hmeaning
  | v6 h =>
      cases h' with
      | v4 _ _ => cases congrArg Meaning.version hmeaning
      | v6 h' => rw [hgroups h h' (congrArg Meaning.value hmeaning)]
      | zoned _ => cases congrArg Meaning.zone hmeaning
  | zoned h =>
      cases h' with
      | v4 _ _ => cases congrArg Meaning.version hmeaning
      | v6 _ => cases congrArg Meaning.zone hmeaning
      | zoned h' =>
          rw [hgroups h h' (congrArg Meaning.value hmeaning),
            Option.some.inj (congrArg Meaning.zone hmeaning)]

end Meaning

end Address

/-- What a host denotes that spells an address. -/
def Denotes (host : String) (m : Address.Meaning) : Prop :=
  ∃ a, Address.Spells host.toList a ∧ a.meaning = m

section Hosts

variable {host host' x x' : String} {m m' : Address.Meaning}

theorem canonicalAddress?_eq_some_iff : canonicalAddress? host = some x ↔
    ∃ a, Address.Spells host.toList a ∧ String.ofList a.text = x := by
  simp only [canonicalAddress?, Option.map_eq_some_iff, Address.parse?_eq_some_iff]

theorem Denotes.unique (h : Denotes host m) (h' : Denotes host m') : m = m' := by
  obtain ⟨a, ha, rfl⟩ := h
  obtain ⟨b, hb, rfl⟩ := h'
  rw [ha.unique hb]

theorem recognised_iff : (∃ x, canonicalAddress? host = some x) ↔ ∃ m, Denotes host m := by
  constructor
  · rintro ⟨x, hx⟩
    obtain ⟨a, ha, -⟩ := canonicalAddress?_eq_some_iff.mp hx
    exact ⟨_, a, ha, rfl⟩
  · rintro ⟨m, a, ha, -⟩
    exact ⟨_, canonicalAddress?_eq_some_iff.mpr ⟨a, ha, rfl⟩⟩

theorem canonicalAddress?_idem (h : canonicalAddress? host = some x) :
    canonicalAddress? x = some x := by
  obtain ⟨a, ha, rfl⟩ := canonicalAddress?_eq_some_iff.mp h
  refine canonicalAddress?_eq_some_iff.mpr ⟨a, ?_, rfl⟩
  rw [String.toList_ofList]
  exact ha.text

theorem denotes_canonical (h : canonicalAddress? host = some x) :
    Denotes x m ↔ Denotes host m := by
  obtain ⟨a, ha, rfl⟩ := canonicalAddress?_eq_some_iff.mp h
  have htext : Address.Spells (String.ofList a.text).toList a := by
    rw [String.toList_ofList]
    exact ha.text
  constructor
  · exact fun hm => ⟨a, ha, Denotes.unique ⟨a, htext, rfl⟩ hm⟩
  · exact fun hm => ⟨a, htext, Denotes.unique ⟨a, ha, rfl⟩ hm⟩

theorem eq_iff_denotes (hx : canonicalAddress? host = some x)
    (hx' : canonicalAddress? host' = some x') (hm : Denotes host m) (hm' : Denotes host' m') :
    x = x' ↔ m = m' := by
  constructor
  · rintro rfl
    exact Denotes.unique ((denotes_canonical hx).mpr hm) ((denotes_canonical hx').mpr hm')
  · rintro rfl
    obtain ⟨a, ha, rfl⟩ := canonicalAddress?_eq_some_iff.mp hx
    obtain ⟨b, hb, rfl⟩ := canonicalAddress?_eq_some_iff.mp hx'
    have hmeaning : a.meaning = b.meaning :=
      (Denotes.unique ⟨a, ha, rfl⟩ hm).trans (Denotes.unique ⟨b, hb, rfl⟩ hm').symm
    rw [ha.eq_of_meaning hb hmeaning]

/-- The addresses of a cluster stand for what its hosts denote, each once. -/
structure Collapses (endpoints : List Endpoint) (addresses : List String) : Prop where
  distinct : addresses.Nodup
  printed : ∀ x ∈ addresses, canonicalAddress? x = some x
  mem_iff : ∀ m, (∃ x ∈ addresses, Denotes x m) ↔ ∃ e ∈ endpoints, Denotes e.host m
  unique : ∀ x ∈ addresses, ∀ x' ∈ addresses, ∀ m, Denotes x m → Denotes x' m → x = x'

theorem Cluster.collapses (base : Endpoint) (endpoints : List Endpoint) :
    Collapses endpoints (ofEndpoints base endpoints).addresses := by
  have hprinted : ∀ x ∈ (ofEndpoints base endpoints).addresses, canonicalAddress? x = some x := by
    intro x hx
    obtain ⟨e, -, he⟩ := mem_addresses.mp hx
    exact canonicalAddress?_idem he
  refine ⟨nodup_eraseDups _, hprinted, fun m => ⟨?_, ?_⟩, fun x hx x' hx' m hm hm' => ?_⟩
  · rintro ⟨x, hx, hm⟩
    obtain ⟨e, he, hcanonical⟩ := mem_addresses.mp hx
    exact ⟨e, he, (denotes_canonical hcanonical).mp hm⟩
  · rintro ⟨e, he, hm⟩
    obtain ⟨x, hx⟩ := recognised_iff.mpr ⟨m, hm⟩
    exact ⟨x, mem_addresses.mpr ⟨e, he, hx⟩, (denotes_canonical hx).mpr hm⟩
  · exact (eq_iff_denotes (hprinted x hx) (hprinted x' hx') hm hm').mpr rfl

/-- Hosts that spell addresses have one printed form exactly if they denote the same version, number
and zone, and a printed form is its own. So a cluster has each address among its hosts once. -/
theorem canonicalAddress_exact :
    (∀ host, (∃ x, canonicalAddress? host = some x) ↔ ∃ m, Denotes host m) ∧
    (∀ host m, Denotes host m → m.version = 4 ∧ m.value < 2 ^ 32 ∧ m.zone = none ∨
      m.version = 6 ∧ m.value < 2 ^ 128) ∧
    (∀ host host' x x' m m', canonicalAddress? host = some x → canonicalAddress? host' = some x' →
      Denotes host m → Denotes host' m' → (x = x' ↔ m = m')) ∧
    (∀ host x, canonicalAddress? host = some x → canonicalAddress? x = some x) ∧
    ∀ urls endpoints, Endpoint.parseAll urls = .ok endpoints →
      ∃ c, Cluster.ofUrls urls = .ok c ∧ Collapses endpoints c.addresses := by
  refine ⟨fun host => recognised_iff, ?_, fun _ _ _ _ _ _ => eq_iff_denotes,
    fun _ _ => canonicalAddress?_idem, fun urls endpoints h => ?_⟩
  · rintro host m ⟨a, ha, rfl⟩
    exact ha.bounds
  · rcases Cluster.ofUrls_cases urls with ⟨f, hf, -⟩ | ⟨base, others, hparse, hcluster⟩
    · cases hf.symm.trans h
    · obtain rfl := Except.ok.inj (hparse.symm.trans h)
      exact ⟨_, hcluster, Cluster.collapses base (base :: others)⟩

def respelled : List String :=
  ["http://[0:0::1]:9200", "http://[::0.0.0.1]:9200", "http://10.0.0.1:9200",
    "http://[::1%eth0]:9200"]

def respelledEndpoints : List Endpoint :=
  ["0:0::1", "::0.0.0.1", "10.0.0.1", "::1%eth0"].map fun host => ⟨"http", host, 9200, ""⟩

theorem canonicalAddress_exact_respelled :
    Endpoint.parseAll respelled = .ok respelledEndpoints ∧
    (∃ c, Cluster.ofUrls respelled = .ok c ∧ c.addresses = ["::1", "10.0.0.1", "::1%eth0"] ∧
      Collapses respelledEndpoints c.addresses) ∧
    canonicalAddress? "::1" = some "::1" ∧
    ∃ m, Denotes "0:0::1" m ∧ Denotes "::0.0.0.1" m ∧ ¬ Denotes "::1%eth0" m := by
  have hparsed : respelled.map Endpoint.parse = respelledEndpoints.map .ok := rfl
  have hurls : Endpoint.parseAll respelled = .ok respelledEndpoints := by
    rw [Endpoint.parseAll, mapM_eq_ok_iff.mpr hparsed]
    rfl
  have haddresses (base : Endpoint) : (Cluster.ofEndpoints base respelledEndpoints).addresses =
      ["::1", "10.0.0.1", "::1%eth0"] := rfl
  obtain ⟨hrecognised, -, hsame, hidem, hcluster⟩ := canonicalAddress_exact
  obtain ⟨c, hc, hcollapses⟩ := hcluster respelled respelledEndpoints hurls
  have hfirst : canonicalAddress? "0:0::1" = some "::1" := rfl
  have hsecond : canonicalAddress? "::0.0.0.1" = some "::1" := rfl
  have hzoned : canonicalAddress? "::1%eth0" = some "::1%eth0" := rfl
  obtain ⟨m, hm⟩ := (hrecognised _).mp ⟨_, hfirst⟩
  obtain ⟨m', hm'⟩ := (hrecognised _).mp ⟨_, hsecond⟩
  obtain rfl := (hsame _ _ _ _ m m' hfirst hsecond hm hm').mp rfl
  refine ⟨hurls, ⟨c, hc, ?_, hcollapses⟩, hidem _ _ hfirst, m, hm, hm', fun hm'' => ?_⟩
  · rcases Cluster.ofUrls_cases respelled with ⟨f, hf, -⟩ | ⟨base, others, hparse, hbuilt⟩
    · cases hf.symm.trans hurls
    · have hall := Except.ok.inj (hparse.symm.trans hurls)
      rw [Except.ok.inj (hc.symm.trans hbuilt), hall]
      exact haddresses base
  · exact absurd ((hsame _ _ _ _ m m hfirst hzoned hm hm'').mpr rfl) (by decide)

end Hosts

end SpanStore.Net
