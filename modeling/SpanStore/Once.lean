import SpanStore.Fault

/-!
A value computed at most once. Callers come one at a time to the handle, which computes, gives
the value, or raises a fault. Only a configuration fault is kept for good; any other fault goes
to the caller that met it and to those that were already waiting, and the next caller tries
again.
-/
namespace SpanStore

inductive Phase (α : Type) where
  | unchecked
  | checking
  | ready (value : α)
  | failed (fault : Fault)

/-- A handle: its phase, the fault of the last failed computation, and how many computations
failed with a fault that is not kept. -/
structure Once (α : Type) where
  phase : Phase α
  lastFault : Option Fault
  failures : Nat

namespace Once

variable {α σ : Type}

def fresh : Once α := ⟨.unchecked, none, 0⟩

def ofValue (a : α) : Once α := ⟨.ready a, none, 0⟩

def phaseName (h : Once α) : String :=
  match h.phase with
  | .unchecked => "unchecked"
  | .checking => "checking"
  | .ready _ => "ready"
  | .failed _ => "failed"

def isReady (h : Once α) : Bool :=
  match h.phase with
  | .ready _ => true
  | _ => false

def describe (h : Once α) (name : String) : String :=
  "Lazy(" ++ name ++ ", state=" ++ h.phaseName ++ ")"

/-- What a caller takes along on entry: the value, or the number of failures seen. -/
inductive Entry (α : Type) where
  | done (value : α)
  | waiting (seen : Nat)

def enter (h : Once α) : Entry α :=
  match h.phase with
  | .ready a => .done a
  | _ => .waiting h.failures

inductive Turn (α : Type) where
  | outcome (r : Except Fault α)
  | compute

/-- The turn of a caller that saw `seen` failures on entry. A failure since then is its own. -/
def turn (h : Once α) (seen : Nat) : Turn α :=
  match h.phase, h.lastFault with
  | .ready a, _ => .outcome (.ok a)
  | .failed f, _ => .outcome (.error f)
  | _, some f => if h.failures = seen then .compute else .outcome (.error f)
  | _, none => .compute

def check (h : Once α) : Once α := { h with phase := .checking }

def settle (h : Once α) : Except Fault α → Once α
  | .ok a => { h with phase := .ready a, lastFault := none }
  | .error f =>
      if f.kind.isConfiguration then { h with phase := .failed f, lastFault := some f }
      else { phase := .unchecked, lastFault := some f, failures := h.failures + 1 }

abbrev Computation (σ α : Type) := Once α → σ → Except Fault α × σ

/-- Take the turn of a caller. -/
def take (compute : Computation σ α) (seen : Nat) (h : Once α) (s : σ) :
    Except Fault α × Once α × σ :=
  match h.turn seen with
  | .outcome r => (r, h, s)
  | .compute =>
      let h := h.check
      let (r, s) := compute h s
      (r, h.settle r, s)

def complete (compute : Computation σ α) (h : Once α) (s : σ) :
    Entry α → Except Fault α × Once α × σ
  | .done a => (.ok a, h, s)
  | .waiting seen => h.take compute seen s

/-- Enter and complete with nobody between. -/
def get (compute : Computation σ α) (h : Once α) (s : σ) : Except Fault α × Once α × σ :=
  h.complete compute s h.enter

def completeAll (compute : Computation σ α) (h : Once α) (s : σ) :
    List (Entry α) → List (Except Fault α) × Once α × σ
  | [] => ([], h, s)
  | e :: es =>
      let (r, h, s) := h.complete compute s e
      let (rs, h, s) := h.completeAll compute s es
      (r :: rs, h, s)

/-- Let callers enter all before the first of them completes. -/
def getTogether (compute : Computation σ α) (callers : Nat) (h : Once α) (s : σ) :
    List (Except Fault α) × Once α × σ :=
  h.completeAll compute s (List.replicate callers h.enter)

end Once

end SpanStore
