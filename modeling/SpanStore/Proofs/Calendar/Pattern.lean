import SpanStore.Proofs.Calendar.Range

namespace SpanStore.Calendar

/-- What a pattern stands for: a star is any run of characters, and the rest is as it is. -/
inductive Matches : List Char → List Char → Prop where
  | nil : Matches [] []
  | char {c : Char} {pattern name : List Char} (hc : c ≠ '*') (h : Matches pattern name) :
      Matches (c :: pattern) (c :: name)
  | star (run : List Char) {pattern name : List Char} (h : Matches pattern name) :
      Matches ('*' :: pattern) (run ++ name)

namespace Matches

variable {p q s t : List Char}

theorem append (h : Matches p s) (h' : Matches q t) : Matches (p ++ q) (s ++ t) := by
  induction h with
  | nil => exact h'
  | char hc _ ih => exact .char hc ih
  | star run _ ih =>
      rw [List.append_assoc]
      exact .star run ih

theorem refl (p : List Char) : Matches p p := by
  induction p with
  | nil => exact .nil
  | cons c p ih =>
      by_cases hc : c = '*'
      · subst hc
        exact .star ['*'] ih
      · exact .char hc ih

theorem ends (t : List Char) : Matches ['*'] t := by
  simpa using Matches.star t .nil

end Matches

namespace IndexNaming

variable (n : IndexNaming)

theorem ofDay_matches (day : Int) : Matches n.all.toList (n.ofDay day).toList := by
  have hall : n.all.toList = (n.index.toList ++ ['-']) ++ ['*'] := by
    simp [all]
  have hday : (n.ofDay day).toList = (n.index.toList ++ ['-']) ++ (dateOf day).text := by
    simp [ofDay]
  rw [hall, hday]
  exact (Matches.refl _).append (.ends _)

variable {n}

theorem ofInstant_matches {millis : Quantity} {name : String}
    (h : n.ofInstant millis = .ok name) : Matches n.all.toList name.toList := by
  unfold ofInstant at h
  cases hday : dayOf millis with
  | error f =>
      rw [hday] at h
      cases h
  | ok day =>
      rw [hday] at h
      obtain rfl := Except.ok.inj h
      exact n.ofDay_matches day

theorem walk_matches {last day : Int} {seen : Array String} {names : List String}
    (hseen : ∀ name ∈ seen.toList, Matches n.all.toList name.toList)
    (h : n.walk last day seen = .ok names) :
    ∀ name ∈ names, Matches n.all.toList name.toList := by
  fun_induction walk n last day seen with
  | case1 => cases h
  | case2 day seen _ next _ ih =>
      refine ih (fun name hname => ?_) h
      rw [Array.toList_push, List.mem_append, List.mem_singleton] at hname
      rcases hname with hname | rfl
      · exact hseen name hname
      · exact n.ofDay_matches day
  | case3 =>
      obtain rfl := Except.ok.inj h
      exact hseen

theorem ofRange_matches {first last : Quantity} {names : List String}
    (h : n.ofRange first last = .ok names) :
    ∀ name ∈ names, Matches n.all.toList name.toList := by
  unfold ofRange at h
  split at h
  · cases h
  · split at h
    · cases h
    · exact walk_matches (List.forall_mem_nil _) h

end IndexNaming

end SpanStore.Calendar
