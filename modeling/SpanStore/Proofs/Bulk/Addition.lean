import Mathlib.Data.List.Basic
import SpanStore.Bulk.Batch

namespace SpanStore.Bulk

open Json (Value)

structure Addition where
  index : String
  document : Value
  id : Value

namespace Addition

def action (a : Addition) (typeName : String) : Action := ⟨a.index, typeName, a.id⟩

/-- The first line is there when the second turns out to be missing. -/
def Stranded (a : Addition) (b : Batch) : Prop :=
  a.index.isEmpty = false ∧ (∃ first, (a.action b.typeName).line = .ok first) ∧
    ∃ f, b.serialize a.document = .error f

def entry (b : Batch) (a : Addition) : List UInt8 :=
  match (a.action b.typeName).line, b.serialize a.document with
  | .ok first, .ok second => first ++ [Batch.newline] ++ second ++ [Batch.newline]
  | _, _ => []

def written (b : Batch) (a : Addition) : List UInt8 :=
  if a.index.isEmpty then []
  else
    match (a.action b.typeName).line, b.serialize a.document with
    | .ok first, .ok second => first ++ [Batch.newline] ++ second ++ [Batch.newline]
    | .ok first, .error _ => first ++ [Batch.newline]
    | .error _, _ => []

end Addition

namespace Batch

def addOne (b : Batch) (a : Addition) : Except Fault Unit × Batch := b.add a.index a.document a.id

def addAll (b : Batch) (as : List Addition) : Batch := as.foldl (fun b a => (b.addOne a).2) b

def kept (b : Batch) (as : List Addition) : List Addition :=
  as.filter fun a => (b.addOne a).1.isOk

theorem addOne_cases (b : Batch) (a : Addition) :
    (¬ a.Stranded b ∧ a.written b = [] ∧ ∃ f, b.addOne a = (.error f, b)) ∨
    (a.Stranded b ∧ ∃ first f, (a.action b.typeName).line = .ok first ∧
      a.written b = first ++ [newline] ∧
      b.addOne a = (.error f, { b with body := b.body ++ first ++ [newline] })) ∨
    (¬ a.Stranded b ∧ a.written b = a.entry b ∧
      b.addOne a = (.ok (), { b with
        body := b.body ++ a.entry b, actions := b.actions ++ [a.action b.typeName] })) := by
  cases hindex : a.index.isEmpty with
  | true =>
      refine .inl ⟨by simp [Addition.Stranded, hindex], by simp [Addition.written, hindex], ?_⟩
      exact ⟨.emptyIndexName, by simp [addOne, add, hindex]⟩
  | false =>
      cases hline : (a.action b.typeName).line with
      | error f =>
          refine .inl ⟨by simp [Addition.Stranded, hline], ?_, f, ?_⟩
          · simp [Addition.written, hindex, hline]
          · simp only [Addition.action] at hline
            simp [addOne, add, hindex, hline]
      | ok first =>
          have hline' : Action.line ⟨a.index, b.typeName, a.id⟩ = .ok first := hline
          cases hdocument : b.serialize a.document with
          | error f =>
              refine .inr (.inl ⟨⟨hindex, ⟨first, hline⟩, f, hdocument⟩, first, f, rfl, ?_, ?_⟩)
              · simp [Addition.written, hindex, hline, hdocument]
              · simp [addOne, add, hindex, hline', hdocument]
          | ok second =>
              refine .inr (.inr ⟨by simp [Addition.Stranded, hdocument], ?_, ?_⟩)
              · simp [Addition.written, Addition.entry, hindex, hline, hdocument]
              · simp [addOne, add, Addition.entry, Addition.action, hindex, hline', hdocument]

theorem addOne_typeName (b : Batch) (a : Addition) : (b.addOne a).2.typeName = b.typeName := by
  rcases b.addOne_cases a with ⟨-, -, f, h⟩ | ⟨-, first, f, -, -, h⟩ | ⟨-, -, h⟩ <;> rw [h]

theorem addOne_serialize (b : Batch) (a : Addition) :
    (b.addOne a).2.serialize = b.serialize := by
  rcases b.addOne_cases a with ⟨-, -, f, h⟩ | ⟨-, first, f, -, -, h⟩ | ⟨-, -, h⟩ <;> rw [h]

theorem addOne_body (b : Batch) (a : Addition) :
    (b.addOne a).2.body = b.body ++ a.written b := by
  rcases b.addOne_cases a with ⟨-, hw, f, h⟩ | ⟨-, first, f, -, hw, h⟩ | ⟨-, hw, h⟩ <;>
    rw [h, hw] <;> simp

theorem addOne_actions (b : Batch) (a : Addition) :
    (b.addOne a).2.actions =
      b.actions ++ if (b.addOne a).1.isOk then [a.action b.typeName] else [] := by
  rcases b.addOne_cases a with ⟨-, -, f, h⟩ | ⟨-, first, f, -, -, h⟩ | ⟨-, -, h⟩ <;>
    rw [h] <;> simp [Except.isOk, Except.toBool]

theorem addOne_restores_iff {b : Batch} {a : Addition} {f : Fault}
    (hf : (b.addOne a).1 = .error f) :
    ((b.addOne a).2.body = b.body ∧ (b.addOne a).2.actions = b.actions ∧
      (b.addOne a).2.indices = b.indices) ↔ ¬ a.Stranded b := by
  rcases b.addOne_cases a with ⟨hs, -, g, h⟩ | ⟨hs, first, g, -, -, h⟩ | ⟨-, -, h⟩
  · simp [h, hs]
  · simp [h, hs]
  · simp [h] at hf

section Congruence

variable {b c : Batch} (ht : c.typeName = b.typeName) (hs : c.serialize = b.serialize)

include ht hs

theorem written_congr (a : Addition) : a.written c = a.written b := by
  simp only [Addition.written, ht, hs]

theorem isOk_congr (a : Addition) : (c.addOne a).1.isOk = (b.addOne a).1.isOk := by
  simp only [addOne, add, ht, hs]
  split
  · rfl
  · cases (Action.line ⟨a.index, b.typeName, a.id⟩) with
    | error f => rfl
    | ok first => cases b.serialize a.document <;> rfl

theorem addAll_body_of (as : List Addition) :
    (c.addAll as).body = c.body ++ as.flatMap (Addition.written b) := by
  induction as generalizing c with
  | nil => simp [addAll]
  | cons a as ih =>
      have hstep := ih (c := (c.addOne a).2) (by rw [addOne_typeName, ht])
        (by rw [addOne_serialize, hs])
      simp only [addAll, List.foldl_cons] at hstep ⊢
      rw [hstep, addOne_body, written_congr ht hs]
      simp

theorem addAll_actions_of (as : List Addition) :
    (c.addAll as).actions = c.actions ++ (b.kept as).map (Addition.action · b.typeName) := by
  induction as generalizing c with
  | nil => simp [addAll, kept]
  | cons a as ih =>
      have hstep := ih (c := (c.addOne a).2) (by rw [addOne_typeName, ht])
        (by rw [addOne_serialize, hs])
      simp only [addAll, List.foldl_cons] at hstep ⊢
      rw [hstep, addOne_actions, isOk_congr ht hs, ht]
      cases hok : (b.addOne a).1.isOk <;> simp [kept, hok]

end Congruence

theorem addAll_body (b : Batch) (as : List Addition) :
    (b.addAll as).body = b.body ++ as.flatMap (Addition.written b) :=
  addAll_body_of rfl rfl as

theorem addAll_actions (b : Batch) (as : List Addition) :
    (b.addAll as).actions = b.actions ++ (b.kept as).map (Addition.action · b.typeName) :=
  addAll_actions_of rfl rfl as

end Batch

end SpanStore.Bulk
