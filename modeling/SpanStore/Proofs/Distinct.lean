import Mathlib.Data.List.Induction
import Mathlib.Data.List.Nodup

namespace SpanStore

variable {α : Type} [BEq α]

theorem eraseDups_eq_nil_iff {as : List α} : as.eraseDups = [] ↔ as = [] := by
  cases as with
  | nil => simp
  | cons a as => simp [List.eraseDups_cons]

variable [LawfulBEq α]

theorem eraseDups_append_iff {as bs : List α} :
    (as ++ bs).eraseDups = as.eraseDups ↔ ∀ b ∈ bs, b ∈ as := by
  rw [List.eraseDups_append, List.append_right_eq_self, eraseDups_eq_nil_iff, List.removeAll,
    List.filter_eq_nil_iff]
  simp

theorem eraseDups_concat_of_not_mem {as : List α} {a : α} (h : a ∉ as) :
    (as ++ [a]).eraseDups = as.eraseDups ++ [a] := by
  have hnew : [a].removeAll as = [a] := by simp [List.removeAll, h]
  rw [List.eraseDups_append, hnew]
  rfl

theorem nodup_eraseDups (as : List α) : as.eraseDups.Nodup := by
  induction as using List.reverseRecOn with
  | nil => exact .nil
  | append_singleton as a ih =>
      by_cases ha : a ∈ as
      · rwa [eraseDups_append_iff.mpr (List.forall_mem_singleton.mpr ha)]
      · rw [eraseDups_concat_of_not_mem ha, ← List.concat_eq_append]
        exact ih.concat fun h => ha (List.mem_eraseDups.mp h)

end SpanStore
