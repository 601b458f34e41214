import SpanStore.Fault

/-!
A directory of names whose answers are known in advance. Each lookup of a name uses up one of its
answers; the last one stays. A name without answers has no address.
-/
namespace SpanStore.Net

abbrev Answer := Except Fault (List String)

/-- The answers left for each name, and the names looked up so far in order. -/
structure Directory where
  answers : List (String × List Answer)
  queries : List String

namespace Directory

def useUp : List Answer → List Answer
  | _ :: a :: rest => a :: rest
  | rest => rest

def lookup (d : Directory) (host : String) : Answer × Directory :=
  let left := ((d.answers.find? fun e => e.1 == host).map Prod.snd).getD []
  (left.headD (.ok []),
    ⟨d.answers.map fun e => if e.1 == host then (e.1, useUp e.2) else e, d.queries ++ [host]⟩)

end Directory

/-- What the operating system's answer to a lookup means: each address counts once, and its own
faults are reported for the host. -/
def systemAnswer (host : String) : Answer → Answer
  | .ok addresses => .ok addresses.eraseDups
  | .error f => if f.kind.isSystem then .error (.lookupFailed host f) else .error f

abbrev Lookup := Directory → String → Answer × Directory

def systemLookup : Lookup := fun d host =>
  let (answer, d) := d.lookup host
  (systemAnswer host answer, d)

end SpanStore.Net
