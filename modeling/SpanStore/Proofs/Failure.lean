import SpanStore.Fault

namespace SpanStore

variable {α β : Type} {condition : Prop} {kind : Kind} {stray : Fault}

/-- A failure is of the kind, unless a condition holds: then it is the stray one. -/
structure FailsUnless (condition : Prop) (kind : Kind) (stray : Fault) (result : Except Fault α) :
    Prop where
  regular : ¬ condition → ∀ f, result = .error f → f.kind = kind
  irregular : condition → result = .error stray

namespace FailsUnless

theorem of_ok {answer : α} (h : ¬ condition) :
    FailsUnless condition kind stray (.ok answer : Except Fault α) where
  regular _ _ := nofun
  irregular hcondition := absurd hcondition h

theorem congr {result : Except Fault α} {result' : Except Fault β}
    (h : FailsUnless condition kind stray result)
    (herror : ∀ f, result' = .error f ↔ result = .error f) :
    FailsUnless condition kind stray result' where
  regular hcondition f hf := h.regular hcondition f ((herror f).mp hf)
  irregular hcondition := (herror _).mpr (h.irregular hcondition)

end FailsUnless

end SpanStore
