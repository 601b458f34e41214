import Mathlib.Data.List.Induction
import Mathlib.Data.List.Nodup
import SpanStore.Ordered
import SpanStore.Proofs.Distinct

namespace SpanStore.Ordered

variable {κ α : Type} [BEq κ]

theorem mem_of_mem_put {k : κ} {v : α} {es : List (κ × α)} {e : κ × α} (h : e ∈ put k v es) :
    e = (k, v) ∨ e ∈ es := by
  induction es with
  | nil => exact .inl (List.mem_singleton.mp h)
  | cons d es ih =>
      rw [put] at h
      split at h
      · exact (List.mem_cons.mp h).imp id (List.mem_cons_of_mem d)
      · rcases List.mem_cons.mp h with rfl | h
        · exact .inr List.mem_cons_self
        · exact (ih h).imp id (List.mem_cons_of_mem d)

theorem put_ne_nil (k : κ) (v : α) (es : List (κ × α)) : put k v es ≠ [] := by
  cases es with
  | nil => exact List.cons_ne_nil _ _
  | cons e es =>
      rw [put]
      split <;> exact List.cons_ne_nil _ _

theorem ofPairs_concat (ps : List (κ × α)) (p : κ × α) :
    ofPairs (ps ++ [p]) = put p.1 p.2 (ofPairs ps) := by
  rw [ofPairs, List.foldl_append]
  rfl

theorem mem_of_mem_ofPairs {ps : List (κ × α)} {e : κ × α} (h : e ∈ ofPairs ps) : e ∈ ps := by
  induction ps using List.reverseRecOn with
  | nil => exact h
  | append_singleton ps p ih =>
      rw [ofPairs_concat] at h
      rcases mem_of_mem_put h with rfl | h
      · exact List.mem_append_right _ List.mem_cons_self
      · exact List.mem_append_left _ (ih h)

theorem ofPairs_ne_nil {ps : List (κ × α)} (h : ps ≠ []) : ofPairs ps ≠ [] := by
  rw [← List.dropLast_concat_getLast h, ofPairs_concat]
  exact put_ne_nil _ _ _

section Lawful

variable [LawfulBEq κ]

theorem mem_keys_put {k j : κ} {v : α} {es : List (κ × α)} :
    j ∈ (put k v es).map Prod.fst ↔ j = k ∨ j ∈ es.map Prod.fst := by
  induction es with
  | nil => simp [put]
  | cons e es ih =>
      rw [put]
      split
      · rename_i he
        obtain rfl := beq_iff_eq.mp he
        simp
      · rw [List.map_cons, List.mem_cons, ih, List.map_cons, List.mem_cons]
        exact or_left_comm

theorem nodup_put {k : κ} {v : α} {es : List (κ × α)} (h : (es.map Prod.fst).Nodup) :
    ((put k v es).map Prod.fst).Nodup := by
  induction es with
  | nil => simp [put]
  | cons e es ih =>
      obtain ⟨hfirst, hrest⟩ := List.nodup_cons.mp h
      rw [put]
      split
      · rename_i he
        obtain rfl := beq_iff_eq.mp he
        exact h
      · rename_i he
        rw [List.map_cons, List.nodup_cons, mem_keys_put, not_or]
        exact ⟨⟨fun heq => he (beq_iff_eq.mpr heq), hfirst⟩, ih hrest⟩

theorem put_of_not_mem {k : κ} (v : α) {es : List (κ × α)} (h : k ∉ es.map Prod.fst) :
    put k v es = es ++ [(k, v)] := by
  induction es with
  | nil => rfl
  | cons e es ih =>
      rw [List.map_cons, List.mem_cons, not_or] at h
      have hne : (e.1 == k) = false := beq_eq_false_iff_ne.mpr (Ne.symm h.1)
      rw [put, hne, ih h.2]
      rfl

theorem keys_put_of_mem {k : κ} (v : α) {es : List (κ × α)} (h : k ∈ es.map Prod.fst) :
    (put k v es).map Prod.fst = es.map Prod.fst := by
  induction es with
  | nil => cases h
  | cons e es ih =>
      rw [put]
      split
      · rename_i he
        rw [← beq_iff_eq.mp he]
        rfl
      · rename_i he
        rw [List.map_cons, List.mem_cons] at h
        have hrest := h.resolve_left fun heq => he (beq_iff_eq.mpr heq.symm)
        rw [List.map_cons, ih hrest, List.map_cons]

theorem keys_ofPairs (ps : List (κ × α)) :
    (ofPairs ps).map Prod.fst = (ps.map Prod.fst).eraseDups := by
  induction ps using List.reverseRecOn with
  | nil => rfl
  | append_singleton ps p ih =>
      rw [ofPairs_concat, List.map_append, List.map_singleton]
      by_cases hp : p.1 ∈ ps.map Prod.fst
      · rw [eraseDups_append_iff.mpr (List.forall_mem_singleton.mpr hp), ← ih]
        exact keys_put_of_mem _ (ih ▸ List.mem_eraseDups.mpr hp)
      · have hnew : p.1 ∉ (ofPairs ps).map Prod.fst := ih ▸ fun h => hp (List.mem_eraseDups.mp h)
        rw [eraseDups_concat_of_not_mem hp, put_of_not_mem _ hnew, List.map_append, ih]
        rfl

theorem mem_put_iff {k : κ} {v : α} {es : List (κ × α)} (h : (es.map Prod.fst).Nodup)
    {e : κ × α} : e ∈ put k v es ↔ e = (k, v) ∨ e ∈ es ∧ e.1 ≠ k := by
  induction es with
  | nil => simp [put]
  | cons d es ih =>
      obtain ⟨hfirst, hrest⟩ := List.nodup_cons.mp h
      have hother (he : e ∈ es) : e.1 ≠ d.1 := fun heq => hfirst (heq ▸ List.mem_map_of_mem he)
      rw [put]
      split
      · rename_i hd
        obtain rfl := beq_iff_eq.mp hd
        rw [List.mem_cons, List.mem_cons]
        refine or_congr_right ⟨fun he => ⟨.inr he, hother he⟩, fun he => ?_⟩
        exact he.1.resolve_left fun heq => he.2 (congrArg Prod.fst heq)
      · rename_i hd
        have hne : d.1 ≠ k := fun heq => hd (beq_iff_eq.mpr heq)
        rw [List.mem_cons, List.mem_cons, ih hrest, or_left_comm, or_and_right]
        refine or_congr_right (or_congr_left ⟨fun he => ⟨he, he ▸ hne⟩, And.left⟩)

theorem mem_ofPairs_iff {ps : List (κ × α)} {e : κ × α} :
    e ∈ ofPairs ps ↔ ∃ before after, ps = before ++ e :: after ∧ ∀ p ∈ after, p.1 ≠ e.1 := by
  induction ps using List.reverseRecOn with
  | nil => simp [ofPairs]
  | append_singleton ps p ih =>
      have hnodup : ((ofPairs ps).map Prod.fst).Nodup := by
        rw [keys_ofPairs]
        exact nodup_eraseDups _
      rw [ofPairs_concat, mem_put_iff hnodup, ih]
      constructor
      · rintro (rfl | ⟨⟨before, after, rfl, hafter⟩, hne⟩)
        · exact ⟨ps, [], rfl, List.forall_mem_nil _⟩
        · refine ⟨before, after ++ [p], by simp, ?_⟩
          rw [List.forall_mem_append]
          exact ⟨hafter, List.forall_mem_singleton.mpr hne.symm⟩
      · rintro ⟨before, after, heq, hafter⟩
        rcases List.eq_nil_or_concat after with rfl | ⟨after, q, rfl⟩
        · obtain ⟨-, hlast⟩ := List.append_inj' heq rfl
          exact .inl (List.singleton_inj.mp hlast).symm
        · rw [List.concat_eq_append] at heq hafter
          rw [← List.cons_append, ← List.append_assoc] at heq
          obtain ⟨rfl, hlast⟩ := List.append_inj' heq rfl
          obtain rfl := List.singleton_inj.mp hlast
          rw [List.forall_mem_append] at hafter
          exact .inr ⟨⟨before, after, rfl, hafter.1⟩, (hafter.2 p List.mem_cons_self).symm⟩

theorem foldl_put {es ps : List (κ × α)} (h : ((es ++ ps).map Prod.fst).Nodup) :
    ps.foldl (fun es p => put p.1 p.2 es) es = es ++ ps := by
  induction ps generalizing es with
  | nil => simp
  | cons p ps ih =>
      have hkeys := h
      rw [List.map_append, List.map_cons, List.nodup_middle, List.nodup_cons,
        List.mem_append, not_or] at hkeys
      have hput := put_of_not_mem p.2 hkeys.1.1
      rw [List.append_cons] at h ⊢
      rw [List.foldl_cons, hput]
      exact ih h

theorem ofPairs_of_nodup {ps : List (κ × α)} (h : (ps.map Prod.fst).Nodup) :
    ofPairs ps = ps := by
  have hall : (([] ++ ps).map Prod.fst).Nodup := h
  exact foldl_put hall

end Lawful

end SpanStore.Ordered
