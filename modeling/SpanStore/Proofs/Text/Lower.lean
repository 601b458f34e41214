import Mathlib.Tactic.SplitIfs
import SpanStore.Text.Lower

namespace SpanStore.Text

def lowered (before : List Char) (c : Char) (rest : List Char) : List Char :=
  if c == '\u0130' then ['i', '\u0307']
  else if c == 'Σ' then [if meetsCased before && !meetsCased rest then 'ς' else 'σ']
  else [lowerChar c]

def lowerFrom (before : List Char) : List Char → List Char
  | [] => []
  | c :: rest => lowered before c rest ++ lowerFrom (c :: before) rest

theorem lowerAfter_eq (before acc s : List Char) :
    lowerAfter before acc s = acc.reverse ++ lowerFrom before s := by
  induction s generalizing before acc with
  | nil => exact (List.append_nil _).symm
  | cons c rest ih =>
      rw [lowerAfter, ih, lowerFrom, lowered]
      split_ifs <;> simp

theorem toList_lower (s : List Char) : (lower (String.ofList s)).toList = lowerFrom [] s := by
  rw [lower, String.toList_ofList, String.toList_ofList, lowerAfter_eq]
  rfl

section Ascii

theorem toLower_ascii {c : Char} (h : c.toNat < 0x80) : c.toLower.toNat < 0x80 ∧
    c.toLower.toLower = c.toLower ∧
    (c.toLower = c ∨ 0x61 ≤ c.toLower.toNat ∧ c.toLower.toNat ≤ 0x7A) := by
  have hall : ∀ n < 0x80, (Char.ofNat n).toLower.toNat < 0x80 ∧
      (Char.ofNat n).toLower.toLower = (Char.ofNat n).toLower ∧
      ((Char.ofNat n).toLower = Char.ofNat n ∨
        0x61 ≤ (Char.ofNat n).toLower.toNat ∧ (Char.ofNat n).toLower.toNat ≤ 0x7A) := by decide
  have hc := hall c.toNat h
  rwa [Char.ofNat_toNat] at hc

theorem lowerChar_ascii {c : Char} (h : c.toNat < 0x80) : lowerChar c = c.toLower := if_pos h

theorem lowered_ascii {c : Char} (h : c.toNat < 0x80) (before rest : List Char) :
    lowered before c rest = [c.toLower] := by
  have hdotted : c ≠ '\u0130' := by
    rintro rfl
    exact absurd h (by decide)
  have hsigma : c ≠ 'Σ' := by
    rintro rfl
    exact absurd h (by decide)
  rw [lowered, beq_false_of_ne hdotted, beq_false_of_ne hsigma, lowerChar_ascii h]
  rfl

theorem lowerFrom_append {p : List Char} (h : ∀ c ∈ p, c.toNat < 0x80) (before t : List Char) :
    lowerFrom before (p ++ t) = p.map Char.toLower ++ lowerFrom (p.reverse ++ before) t := by
  induction p generalizing before with
  | nil => rfl
  | cons c p ih =>
      obtain ⟨hc, hp⟩ := List.forall_mem_cons.mp h
      rw [List.cons_append, lowerFrom, lowered_ascii hc, ih hp]
      simp

theorem lowerFrom_ascii {s : List Char} (h : ∀ c ∈ s, c.toNat < 0x80) (before : List Char) :
    lowerFrom before s = s.map Char.toLower := by
  have hall := lowerFrom_append h before []
  rwa [List.append_nil, lowerFrom, List.append_nil] at hall

end Ascii

section Settled

def Settled (c : Char) : Prop := lowerChar c = c ∧ c ≠ '\u0130' ∧ c ≠ 'Σ'

instance : DecidablePred Settled := fun _ => inferInstanceAs (Decidable (_ ∧ _ ∧ _))

def IsTarget (n : Nat) : Prop :=
  0x61 ≤ n ∧ n ≤ 0x7A ∨ n ∈ [0x307, 0x3C2, 0x3C3] ∨
    ∃ r ∈ lowerRuns, r.target ≤ n ∧ n ≤ r.target + (r.last - r.first)

instance : DecidablePred IsTarget := fun _ => inferInstanceAs (Decidable (_ ∨ _ ∨ _))

/-- No character that the first run yields is moved by the second. Most pairs lie apart, which
`Nat.blt` tells quickly. -/
def LowerRun.spares (r r' : LowerRun) : Bool :=
  Nat.blt (r.target + (r.last - r.first)) r'.first || Nat.blt r'.last r.target ||
    (r'.alternate && r'.first ≤ r.target && (r.target - r'.first) % 2 == 1 &&
      (r.alternate || r.first == r.last))

theorem lowerRuns_spare : lowerRuns.all (fun r => lowerRuns.all r.spares) = true := by
  decide +kernel

theorem lowerRuns_bounds : ∀ r ∈ lowerRuns,
    (0x80 ≤ r.target ∨ r.target = 0x6B ∧ r.first = r.last) ∧
    (r.target + (r.last - r.first) < 0x130 ∨ 0x130 < r.target) ∧
    (r.target + (r.last - r.first) < 0xD800 ∨
      0xDFFF < r.target ∧ r.target + (r.last - r.first) < 0x110000) := by
  decide +kernel

theorem spares_elim {r r' : LowerRun} (h : r.spares r' = true) {i : Nat} (hi : i ≤ r.last - r.first)
    (hstep : r.alternate = true → i % 2 = 0) (hfirst : r'.first ≤ r.target + i)
    (hlast : r.target + i ≤ r'.last) :
    r'.alternate = true ∧ (r.target + i - r'.first) % 2 = 1 := by
  simp only [LowerRun.spares, Bool.or_eq_true, Bool.and_eq_true, Nat.blt_eq, decide_eq_true_eq,
    beq_iff_eq] at h
  rcases h with (habove | hbelow) | ⟨⟨⟨halternate, hle⟩, hodd⟩, heven | hone⟩
  · omega
  · omega
  · have := hstep heven
    exact ⟨halternate, by omega⟩
  · exact ⟨halternate, by omega⟩

theorem lowerChar_of_spared {c : Char} (hc : 0x80 ≤ c.toNat)
    (h : ∀ r ∈ lowerRuns, r.first ≤ c.toNat → c.toNat ≤ r.last →
      r.alternate = true ∧ (c.toNat - r.first) % 2 = 1) : lowerChar c = c := by
  rw [lowerChar, if_neg (Nat.not_lt.mpr hc)]
  split
  · rename_i r hr
    have hbounds := List.find?_some hr
    rw [Bool.and_eq_true, decide_eq_true_eq, decide_eq_true_eq] at hbounds
    obtain ⟨halternate, hodd⟩ := h r (List.mem_of_find?_eq_some hr) hbounds.1 hbounds.2
    rw [halternate, hodd]
    rfl
  · rfl

theorem settled_ascii {c : Char} (h : c.toNat < 0x80) : Settled c.toLower := by
  obtain ⟨hascii, hidem, -⟩ := toLower_ascii h
  refine ⟨(lowerChar_ascii hascii).trans hidem, ?_, ?_⟩
  · intro hdotted
    rw [hdotted] at hascii
    exact absurd hascii (by decide)
  · intro hsigma
    rw [hsigma] at hascii
    exact absurd hascii (by decide)

theorem settled_of_run {r : LowerRun} (hr : r ∈ lowerRuns) {i : Nat} (hi : i ≤ r.last - r.first)
    (hstep : r.alternate = true → i % 2 = 0) :
    Settled (Char.ofNat (r.target + i)) ∧ (Char.ofNat (r.target + i)).toNat = r.target + i := by
  obtain ⟨hhigh, hdotted, hvalid⟩ := lowerRuns_bounds r hr
  have hchar : (r.target + i).isValidChar := by
    rcases hvalid with hlow | ⟨hbeyond, hlast⟩
    · exact .inl (by omega)
    · exact .inr ⟨by omega, by omega⟩
  have htoNat : (Char.ofNat (r.target + i)).toNat = r.target + i := by
    rw [Char.ofNat, dif_pos hchar]
    rfl
  refine ⟨?_, htoNat⟩
  rcases hhigh with hhigh | ⟨hk, hone⟩
  · -- the sigma and the dotted capital are no targets: the one is moved, the other beyond all runs
    have hspares (r' : LowerRun) (hr' : r' ∈ lowerRuns) : r.spares r' = true :=
      List.all_eq_true.mp (List.all_eq_true.mp lowerRuns_spare r hr) r' hr'
    have hmoved : lowerChar (Char.ofNat (r.target + i)) = Char.ofNat (r.target + i) := by
      refine lowerChar_of_spared (by omega) fun r' hr' hfirst hlast => ?_
      rw [htoNat] at hfirst hlast ⊢
      exact spares_elim (hspares r' hr') hi hstep hfirst hlast
    refine ⟨hmoved, fun heq => ?_, fun heq => ?_⟩
    · rw [heq] at htoNat
      have : ('\u0130' : Char).toNat = 0x130 := rfl
      omega
    · rw [heq] at hmoved
      exact absurd hmoved (by decide)
  · obtain rfl : i = 0 := by omega
    rw [hk]
    decide

theorem settled_lowerChar {c : Char} (hdotted : c ≠ '\u0130') (hsigma : c ≠ 'Σ') :
    Settled (lowerChar c) ∧ (lowerChar c = c ∨ IsTarget (lowerChar c).toNat) := by
  by_cases hascii : c.toNat < 0x80
  · rw [lowerChar_ascii hascii]
    exact ⟨settled_ascii hascii, (toLower_ascii hascii).2.2.imp_right .inl⟩
  · cases hfind : lowerRuns.find? fun r => r.first ≤ c.toNat && c.toNat ≤ r.last with
    | none =>
        have hsame : lowerChar c = c := by rw [lowerChar, if_neg hascii, hfind]
        rw [hsame]
        exact ⟨⟨hsame, hdotted, hsigma⟩, .inl rfl⟩
    | some r =>
        have hbounds := List.find?_some hfind
        rw [Bool.and_eq_true, decide_eq_true_eq, decide_eq_true_eq] at hbounds
        have hr := List.mem_of_find?_eq_some hfind
        by_cases hodd : (r.alternate && (c.toNat - r.first) % 2 == 1) = true
        · have hsame : lowerChar c = c := by
            rw [lowerChar, if_neg hascii, hfind]
            exact if_pos hodd
          rw [hsame]
          exact ⟨⟨hsame, hdotted, hsigma⟩, .inl rfl⟩
        · have hmoved : lowerChar c = Char.ofNat (r.target + (c.toNat - r.first)) := by
            rw [lowerChar, if_neg hascii, hfind]
            exact if_neg hodd
          rw [Bool.and_eq_true, beq_iff_eq, not_and] at hodd
          have hi : c.toNat - r.first ≤ r.last - r.first := by omega
          obtain ⟨hsettled, htoNat⟩ := settled_of_run hr hi fun halternate => by
            have := hodd halternate
            omega
          rw [hmoved]
          refine ⟨hsettled, .inr (.inr (.inr ⟨r, hr, ?_⟩))⟩
          rw [htoNat]
          omega

/-- What a text becomes is settled, and new in it are only targets. -/
theorem mem_lowerFrom {before s : List Char} {d : Char} (h : d ∈ lowerFrom before s) :
    Settled d ∧ (d ∈ s ∨ IsTarget d.toNat) := by
  induction s generalizing before with
  | nil => cases h
  | cons c rest ih =>
      rw [lowerFrom] at h
      rcases List.mem_append.mp h with h | h
      · unfold lowered at h
        split_ifs at h with hdotted hsigma hfinal
        · rcases List.mem_cons.mp h with rfl | h
          · exact ⟨by decide +kernel, .inr (by decide)⟩
          · obtain rfl := List.mem_singleton.mp h
            exact ⟨by decide +kernel, .inr (by decide)⟩
        · obtain rfl := List.mem_singleton.mp h
          exact ⟨by decide +kernel, .inr (by decide)⟩
        · obtain rfl := List.mem_singleton.mp h
          exact ⟨by decide +kernel, .inr (by decide)⟩
        · obtain rfl := List.mem_singleton.mp h
          rw [beq_iff_eq] at hdotted hsigma
          obtain ⟨hsettled, hsame | htarget⟩ := settled_lowerChar hdotted hsigma
          · exact ⟨hsettled, .inl (List.mem_cons.mpr (.inl hsame))⟩
          · exact ⟨hsettled, .inr htarget⟩
      · obtain ⟨hsettled, hd⟩ := ih h
        exact ⟨hsettled, hd.imp_left (List.mem_cons_of_mem c)⟩

theorem lowerFrom_of_settled {before s : List Char} (h : ∀ c ∈ s, Settled c) :
    lowerFrom before s = s := by
  induction s generalizing before with
  | nil => rfl
  | cons c rest ih =>
      obtain ⟨⟨hlower, hdotted, hsigma⟩, hrest⟩ := List.forall_mem_cons.mp h
      rw [lowerFrom, ih hrest, lowered, beq_false_of_ne hdotted, beq_false_of_ne hsigma, hlower]
      rfl

theorem lowerFrom_lowerFrom (before before' s : List Char) :
    lowerFrom before' (lowerFrom before s) = lowerFrom before s :=
  lowerFrom_of_settled fun _ hc => (mem_lowerFrom hc).1

theorem lowerFrom_ne_nil {before s : List Char} (h : s ≠ []) : lowerFrom before s ≠ [] := by
  cases s with
  | nil => exact absurd rfl h
  | cons c rest =>
      rw [lowerFrom, lowered]
      split_ifs <;> exact List.cons_ne_nil _ _

end Settled

end SpanStore.Text
