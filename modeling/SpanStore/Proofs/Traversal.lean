namespace SpanStore

variable {α β ε : Type} {f : α → Except ε β}

theorem mapM_eq_ok_iff {as : List α} {bs : List β} :
    as.mapM f = .ok bs ↔ as.map f = bs.map .ok := by
  induction as generalizing bs with
  | nil => cases bs <;> simp [pure, Except.pure]
  | cons a as ih =>
      rw [List.mapM_cons]
      cases ha : f a with
      | error e => cases bs <;> simp [bind, Except.bind, ha]
      | ok b =>
          cases has : as.mapM f with
          | error e => cases bs <;> simp [bind, Except.bind, ha, ← ih, has]
          | ok cs => cases bs <;> simp [bind, Except.bind, pure, Except.pure, ha, ← ih, has]

theorem mapM_ok {g : α → β} {as : List α} (h : ∀ a ∈ as, f a = .ok (g a)) :
    as.mapM f = .ok (as.map g) := by
  rw [mapM_eq_ok_iff, List.map_map]
  exact List.map_congr_left h

theorem mapM_eq_some_iff {g : α → Option β} {as : List α} {bs : List β} :
    as.mapM g = some bs ↔ as.map g = bs.map some := by
  induction as generalizing bs with
  | nil => cases bs <;> simp
  | cons a as ih =>
      rw [List.mapM_cons]
      cases ha : g a with
      | none => cases bs <;> simp [ha]
      | some b =>
          cases has : as.mapM g with
          | none => cases bs <;> simp [ha, ← ih, has]
          | some cs => cases bs <;> simp [ha, ← ih, has]

section Read

variable {g : α → Option β} {as : List α} {bs : List β}

theorem exists_read (h : as.map g = bs.map some) {a : α} (ha : a ∈ as) :
    ∃ b ∈ bs, g a = some b := by
  have hmem := List.mem_map_of_mem (f := g) ha
  rw [h] at hmem
  obtain ⟨b, hb, hread⟩ := List.mem_map.mp hmem
  exact ⟨b, hb, hread.symm⟩

theorem exists_source (h : as.map g = bs.map some) {b : β} (hb : b ∈ bs) :
    ∃ a ∈ as, g a = some b := by
  have hmem := List.mem_map_of_mem (f := some) hb
  rw [← h] at hmem
  exact List.mem_map.mp hmem

theorem eq_map_of_mapM {k : β → α} (h : as.mapM g = some bs) (hk : ∀ a b, g a = some b → a = k b) :
    as = bs.map k := by
  rw [mapM_eq_some_iff] at h
  induction bs generalizing as with
  | nil => exact List.map_eq_nil_iff.mp h
  | cons b bs ih =>
      obtain ⟨a, as, rfl, ha, has⟩ := List.map_eq_cons_iff.mp h
      rw [List.map_cons, ← hk a b ha, ← ih has]

end Read

theorem mapM_eq_error_iff {as : List α} {e : ε} :
    as.mapM f = .error e ↔ ∃ before a after, as = before ++ a :: after ∧
      (∀ b ∈ before, ∃ c, f b = .ok c) ∧ f a = .error e := by
  induction as with
  | nil => simp [pure, Except.pure]
  | cons a as ih =>
      rw [List.mapM_cons]
      cases ha : f a with
      | error d =>
          constructor
          · rintro ⟨⟩
            exact ⟨[], a, as, rfl, List.forall_mem_nil _, ha⟩
          · rintro ⟨before, b, after, hsplit, hbefore, hb⟩
            cases before with
            | nil =>
                obtain ⟨rfl, rfl⟩ := List.cons.inj hsplit
                obtain rfl := Except.error.inj (ha.symm.trans hb)
                rfl
            | cons c before =>
                obtain ⟨rfl, rfl⟩ := List.cons.inj hsplit
                obtain ⟨d, hd⟩ := hbefore a List.mem_cons_self
                cases ha.symm.trans hd
      | ok c =>
          have hrest : (do let cs ← as.mapM f; pure (c :: cs) : Except ε (List β)) = .error e ↔
              as.mapM f = .error e := by
            cases as.mapM f <;> simp [bind, Except.bind, pure, Except.pure]
          refine hrest.trans (ih.trans ⟨?_, ?_⟩)
          · rintro ⟨before, b, after, rfl, hbefore, hb⟩
            exact ⟨a :: before, b, after, rfl, List.forall_mem_cons.mpr ⟨⟨c, ha⟩, hbefore⟩, hb⟩
          · rintro ⟨before, b, after, hsplit, hbefore, hb⟩
            cases before with
            | nil =>
                obtain ⟨rfl, rfl⟩ := List.cons.inj hsplit
                cases ha.symm.trans hb
            | cons d before =>
                obtain ⟨rfl, rfl⟩ := List.cons.inj hsplit
                exact ⟨before, b, after, rfl, (List.forall_mem_cons.mp hbefore).2, hb⟩

end SpanStore
