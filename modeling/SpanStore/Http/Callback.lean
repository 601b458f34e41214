import SpanStore.Fault

namespace SpanStore.Http

structure Callback (κ α : Type) where
  onSuccess : α → κ → Except Fault Unit × κ
  onError : Fault → κ → Except Fault Unit × κ

namespace Callback

/-- Tell a callback how a call ended. Its own failure takes the place of the outcome. -/
def settle {κ α : Type} (callback : Callback κ α) (outcome : Except Fault α) (k : κ) :
    Except Fault α × κ :=
  match outcome with
  | .ok a =>
      match callback.onSuccess a k with
      | (.ok (), k) => (.ok a, k)
      | (.error f, k) => (.error f, k)
  | .error f =>
      match callback.onError f k with
      | (.ok (), k) => (.error f, k)
      | (.error g, k) => (.error g, k)

end Callback

structure Recorder (α : Type) where
  values : List α
  faults : List Fault

namespace Recorder

variable {α : Type}

def empty : Recorder α := ⟨[], []⟩

def onSuccess (a : α) (c : Recorder α) : Recorder α := { c with values := c.values ++ [a] }

def onError (f : Fault) (c : Recorder α) : Recorder α := { c with faults := c.faults ++ [f] }

def count (c : Recorder α) : Nat := c.values.length + c.faults.length

def callback : Callback (Recorder α) α :=
  ⟨fun a c => (.ok (), onSuccess a c), fun f c => (.ok (), c.onError f)⟩

def failingOnSuccess (f : Fault) : Callback (Recorder α) α :=
  { callback with onSuccess := fun a c => (.error f, onSuccess a c) }

def failingOnError (f : Fault) : Callback (Recorder α) α :=
  { callback with onError := fun g c => (.error f, c.onError g) }

end Recorder

end SpanStore.Http
