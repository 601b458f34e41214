import SpanStore.Json.Select

namespace SpanStore.Json

namespace Value

mutual

/-- The values whose path is spelled as the place, in the order of the document, each with its
member names made distinct. The search does not enter a value that it found. -/
def found (place : String) (path : List String) (v : Value) : List Value :=
  if joinPlace path = place then [v.distinct]
  else
    match v with
    | list items => foundItems place (path ++ [itemStep]) items
    | object members => foundMembers place path members
    | _ => []

def foundItems (place : String) (path : List String) : List Value → List Value
  | [] => []
  | v :: vs => found place path v ++ foundItems place path vs

def foundMembers (place : String) (path : List String) : List (String × Value) → List Value
  | [] => []
  | m :: ms => found place (path ++ [m.1]) m.2 ++ foundMembers place path ms

end

end Value

theorem joinPlace_step (path : List String) (name : String) :
    (joinPlace (path ++ [name])).toList =
      (joinPlace path).toList ++ if path.isEmpty then name.toList else '.' :: name.toList := by
  cases path with
  | nil => simp [joinPlace]
  | cons n path =>
      rw [joinPlace, String.intercalate_append_of_ne_nil (List.cons_ne_nil n path)
        (List.cons_ne_nil name []), String.intercalate_singleton]
      simp [joinPlace]

theorem joinPlace_prefix_step (path : List String) (name : String) :
    (joinPlace path).toList <+: (joinPlace (path ++ [name])).toList := by
  rw [joinPlace_step]
  exact List.prefix_append _ _

theorem afterPrefix?_eq_some_iff (beginning s rest : List Char) :
    afterPrefix? beginning s = some rest ↔ s = beginning ++ rest := by
  induction beginning generalizing s with
  | nil => simp [afterPrefix?]
  | cons c cs ih =>
      cases s with
      | nil => simp [afterPrefix?]
      | cons d ds =>
          by_cases hc : c = d
          · subst hc
            simp [afterPrefix?, ih]
          · have hd : ¬ d = c := fun h => hc h.symm
            simp [afterPrefix?, hc, hd]

theorem afterStep?_eq_some_iff {place : String} {path : List String} {left : List Char}
    (h : place.toList = (joinPlace path).toList ++ left) (name : String) (rest : List Char) :
    afterStep? path.isEmpty name left = some rest ↔
      place.toList = (joinPlace (path ++ [name])).toList ++ rest := by
  rw [afterStep?, afterPrefix?_eq_some_iff, h, joinPlace_step, List.append_assoc,
    List.append_right_inj]

namespace Value

mutual

theorem found_eq_nil {place : String} {path : List String}
    (h : ¬ (joinPlace path).toList <+: place.toList) (v : Value) : found place path v = [] := by
  have hne : joinPlace path ≠ place := by
    rintro rfl
    exact h (List.prefix_refl _)
  have hdeeper (name : String) : ¬ (joinPlace (path ++ [name])).toList <+: place.toList :=
    fun hprefix => h ((joinPlace_prefix_step path name).trans hprefix)
  rw [found.eq_def, if_neg hne]
  cases v with
  | list items => exact foundItems_eq_nil (hdeeper itemStep) items
  | object members => exact foundMembers_eq_nil hdeeper members
  | _ => rfl

theorem foundItems_eq_nil {place : String} {path : List String}
    (h : ¬ (joinPlace path).toList <+: place.toList) (vs : List Value) :
    foundItems place path vs = [] := by
  cases vs with
  | nil => rfl
  | cons v vs => rw [foundItems, found_eq_nil h v, foundItems_eq_nil h vs, List.append_nil]

theorem foundMembers_eq_nil {place : String} {path : List String}
    (h : ∀ name, ¬ (joinPlace (path ++ [name])).toList <+: place.toList)
    (ms : List (String × Value)) : foundMembers place path ms = [] := by
  cases ms with
  | nil => rfl
  | cons m ms =>
      rw [foundMembers, found_eq_nil (h m.1) m.2, foundMembers_eq_nil h ms, List.append_nil]

end

mutual

theorem select_eq_found {place : String} {path : List String} {left : List Char}
    (h : place.toList = (joinPlace path).toList ++ left) (v : Value) :
    select path.isEmpty left v = found place path v := by
  have hhere : left.isEmpty ↔ joinPlace path = place := by
    rw [← String.toList_inj, h, List.isEmpty_iff]
    simp
  by_cases hleft : left.isEmpty
  · rw [select.eq_def, found.eq_def, if_pos hleft, if_pos (hhere.mp hleft)]
  · rw [select.eq_def, found.eq_def, if_neg hleft, if_neg (fun he => hleft (hhere.mpr he))]
    cases v with
    | list items =>
        have hpath : (path ++ [itemStep]).isEmpty = false := by simp
        cases hstep : afterStep? path.isEmpty itemStep left with
        | some rest =>
            exact selectItems_eq_found ((afterStep?_eq_some_iff h _ _).mp hstep) hpath items
        | none =>
            -- Nothing below is at the place either, as longer paths keep the mismatch.
            refine (foundItems_eq_nil ?_ items).symm
            rintro ⟨rest, hrest⟩
            rw [(afterStep?_eq_some_iff h _ _).mpr hrest.symm] at hstep
            cases hstep
    | object members => exact selectMembers_eq_found h members
    | _ => rfl

theorem selectItems_eq_found {place : String} {path : List String} {left : List Char}
    (h : place.toList = (joinPlace path).toList ++ left) (hpath : path.isEmpty = false)
    (vs : List Value) : selectItems left vs = foundItems place path vs := by
  cases vs with
  | nil => rfl
  | cons v vs =>
      rw [selectItems, foundItems, ← hpath, select_eq_found h v, selectItems_eq_found h hpath vs]

theorem selectMembers_eq_found {place : String} {path : List String} {left : List Char}
    (h : place.toList = (joinPlace path).toList ++ left) (ms : List (String × Value)) :
    selectMembers path.isEmpty left ms = foundMembers place path ms := by
  cases ms with
  | nil => rfl
  | cons m ms =>
      have hpath : (path ++ [m.1]).isEmpty = false := by simp
      rw [selectMembers, foundMembers, selectMembers_eq_found h ms]
      cases hstep : afterStep? path.isEmpty m.1 left with
      | some rest =>
          have hsub := select_eq_found ((afterStep?_eq_some_iff h _ _).mp hstep) m.2
          rw [hpath] at hsub
          rw [← hsub]
      | none =>
          rw [found_eq_nil _ m.2]
          rintro ⟨rest, hrest⟩
          rw [(afterStep?_eq_some_iff h _ _).mpr hrest.symm] at hstep
          cases hstep

end

theorem foundMembers_eq_flatMap (place : String) (path : List String)
    (ms : List (String × Value)) :
    foundMembers place path ms = ms.flatMap fun m => m.2.found place (path ++ [m.1]) := by
  induction ms with
  | nil => rfl
  | cons m ms ih => rw [foundMembers, ih, List.flatMap_cons]

theorem select_root (place : String) (v : Value) :
    v.select true place.toList = v.found place [] := by
  have hroot : place.toList = (joinPlace []).toList ++ place.toList := by simp [joinPlace]
  exact select_eq_found hroot v

end Value

end SpanStore.Json
