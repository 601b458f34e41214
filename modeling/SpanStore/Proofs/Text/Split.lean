import Mathlib.Data.List.TakeWhile
import SpanStore.Text.Split

namespace SpanStore.Text

theorem cut_of_forall {p : Char → Bool} {s : List Char} (h : ∀ c ∈ s, p c = false) :
    cut p s = (s, none) := by
  induction s with
  | nil => rfl
  | cons c s ih =>
      obtain ⟨hc, hs⟩ := List.forall_mem_cons.mp h
      simp [cut, hc, ih hs]

theorem cut_append_cons {p : Char → Bool} {s : List Char} {d : Char}
    (h : ∀ c ∈ s, p c = false) (hd : p d = true) (rest : List Char) :
    cut p (s ++ d :: rest) = (s, some rest) := by
  induction s with
  | nil => simp [cut, hd]
  | cons c s ih =>
      obtain ⟨hc, hs⟩ := List.forall_mem_cons.mp h
      simp [cut, hc, ih hs]

theorem mem_of_cut {p : Char → Bool} {s rest : List Char} (h : (cut p s).2 = some rest) {c : Char}
    (hc : c ∈ rest) : c ∈ s := by
  induction s with
  | nil => cases h
  | cons d s ih =>
      rw [cut] at h
      split at h
      · obtain rfl := Option.some.inj h
        exact List.mem_cons_of_mem d hc
      · exact List.mem_cons_of_mem d (ih h)

theorem cut_eq_none {p : Char → Bool} {s before : List Char} (h : cut p s = (before, none)) :
    before = s ∧ ∀ c ∈ s, p c = false := by
  induction s generalizing before with
  | nil =>
      obtain ⟨rfl, -⟩ := Prod.mk.inj h
      exact ⟨rfl, List.forall_mem_nil _⟩
  | cons d s ih =>
      rw [cut] at h
      split at h
      · cases h
      · rename_i hd
        obtain ⟨rfl, hrest⟩ := Prod.mk.inj h
        obtain ⟨hbefore, hs⟩ := ih (Prod.ext rfl hrest)
        exact ⟨congrArg (d :: ·) hbefore,
          List.forall_mem_cons.mpr ⟨Bool.eq_false_iff.mpr hd, hs⟩⟩

theorem cut_eq_some {p : Char → Bool} {s before after : List Char}
    (h : cut p s = (before, some after)) :
    (∃ d, p d = true ∧ s = before ++ d :: after) ∧ ∀ c ∈ before, p c = false := by
  induction s generalizing before with
  | nil => cases h
  | cons d s ih =>
      rw [cut] at h
      split at h
      · rename_i hd
        obtain ⟨rfl, hrest⟩ := Prod.mk.inj h
        obtain rfl := Option.some.inj hrest
        exact ⟨⟨d, hd, rfl⟩, List.forall_mem_nil _⟩
      · rename_i hd
        obtain ⟨rfl, hrest⟩ := Prod.mk.inj h
        obtain ⟨⟨e, he, hs⟩, hbefore⟩ := ih (Prod.ext rfl hrest)
        exact ⟨⟨e, he, congrArg (d :: ·) hs⟩,
          List.forall_mem_cons.mpr ⟨Bool.eq_false_iff.mpr hd, hbefore⟩⟩

theorem forall_mem_cut (p : Char → Bool) (s : List Char) :
    ∀ c ∈ (cut p s).1, c ∈ s ∧ p c = false := by
  intro c hc
  rcases hcut : cut p s with ⟨before, _ | after⟩
  · obtain ⟨rfl, hbefore⟩ := cut_eq_none hcut
    rw [hcut] at hc
    exact ⟨hc, hbefore c hc⟩
  · obtain ⟨⟨d, -, rfl⟩, hbefore⟩ := cut_eq_some hcut
    rw [hcut] at hc
    exact ⟨List.mem_append_left _ hc, hbefore c hc⟩

theorem mem_afterLast {p : Char → Bool} {s : List Char} {c : Char} (h : c ∈ afterLast p s) :
    c ∈ s ∧ p c = false := by
  have hmem := List.mem_reverse.mp h
  have hp := List.mem_takeWhile_imp hmem
  exact ⟨List.mem_reverse.mp ((List.takeWhile_sublist _).subset hmem), Bool.not_eq_true' _ ▸ hp⟩

theorem afterLast_of_forall {p : Char → Bool} {s : List Char} (h : ∀ c ∈ s, p c = false) :
    afterLast p s = s := by
  have hall : s.reverse.takeWhile (fun c => !p c) = s.reverse := by
    rw [List.takeWhile_eq_self_iff]
    intro c hc
    rw [h c (List.mem_reverse.mp hc)]
    rfl
  rw [afterLast, hall, List.reverse_reverse]

theorem forall_mem_intercalate {P : Char → Prop} {d : Char} (hd : P d) {parts : List (List Char)}
    (h : ∀ part ∈ parts, ∀ c ∈ part, P c) : ∀ c ∈ [d].intercalate parts, P c := by
  induction parts with
  | nil => exact List.forall_mem_nil _
  | cons part parts ih =>
      obtain ⟨hpart, hparts⟩ := List.forall_mem_cons.mp h
      cases parts with
      | nil => simpa [List.intercalate_singleton] using hpart
      | cons next parts =>
          rw [List.intercalate_cons_cons, List.forall_mem_append, List.forall_mem_append,
            List.forall_mem_singleton]
          exact ⟨⟨hpart, hd⟩, ih hparts⟩

end SpanStore.Text
