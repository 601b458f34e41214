import SpanStore.Proofs.Json.Reading
import SpanStore.Proofs.Ordered

namespace SpanStore

namespace Json.Value

mutual

/-- Built from what JSON text says exactly, whole numbers with the property, and the member names
of an object all distinct. -/
def Exact (P : Int → Prop) : Value → Prop
  | int n => P n
  | float _ => False
  | bytes _ => False
  | list items => ItemsExact P items
  | object members => (members.map Prod.fst).Nodup ∧ MembersExact P members
  | _ => True

def ItemsExact (P : Int → Prop) : List Value → Prop
  | [] => True
  | v :: vs => Exact P v ∧ ItemsExact P vs

def MembersExact (P : Int → Prop) : List (String × Value) → Prop
  | [] => True
  | m :: ms => Exact P m.2 ∧ MembersExact P ms

end

mutual

def AllFloats (P : Float → Prop) : Value → Prop
  | float f => P f
  | list items => ItemsAllFloats P items
  | object members => MembersAllFloats P members
  | _ => True

def ItemsAllFloats (P : Float → Prop) : List Value → Prop
  | [] => True
  | v :: vs => AllFloats P v ∧ ItemsAllFloats P vs

def MembersAllFloats (P : Float → Prop) : List (String × Value) → Prop
  | [] => True
  | m :: ms => AllFloats P m.2 ∧ MembersAllFloats P ms

end

variable {P : Int → Prop}

mutual

theorem Exact.allInts {v : Value} (h : v.Exact P) : v.AllInts P := by
  cases v with
  | int n => exact h
  | list items => exact ItemsExact.allInts h
  | object members => exact MembersExact.allInts h.2
  | _ => trivial

theorem ItemsExact.allInts {vs : List Value} (h : ItemsExact P vs) :
    ItemsAllInts P vs := by
  cases vs with
  | nil => trivial
  | cons v vs => exact ⟨Exact.allInts h.1, ItemsExact.allInts h.2⟩

theorem MembersExact.allInts {ms : List (String × Value)}
    (h : MembersExact P ms) : MembersAllInts P ms := by
  cases ms with
  | nil => trivial
  | cons m ms => exact ⟨Exact.allInts h.1, MembersExact.allInts h.2⟩

end

mutual

theorem Exact.distinct_eq {v : Value} (h : v.Exact P) : v.distinct = v := by
  cases v with
  | list items => rw [distinct, ItemsExact.distinct_eq h]
  | object members =>
      rw [distinct, MembersExact.distinct_eq h.2, Ordered.ofPairs_of_nodup h.1]
  | _ => rfl

theorem ItemsExact.distinct_eq {vs : List Value} (h : ItemsExact P vs) :
    distinctItems vs = vs := by
  cases vs with
  | nil => rfl
  | cons v vs => rw [distinctItems, Exact.distinct_eq h.1, ItemsExact.distinct_eq h.2]

theorem MembersExact.distinct_eq {ms : List (String × Value)}
    (h : MembersExact P ms) : distinctMembers ms = ms := by
  cases ms with
  | nil => rfl
  | cons m ms => rw [distinctMembers, Exact.distinct_eq h.1, MembersExact.distinct_eq h.2]

end

mutual

theorem Exact.holdsBytes_eq {v : Value} (h : v.Exact P) :
    v.holdsBytes = false := by
  cases v with
  | bytes bs => exact h.elim
  | list items => exact ItemsExact.holdBytes_eq h
  | object members => exact MembersExact.holdBytes_eq h.2
  | _ => rfl

theorem ItemsExact.holdBytes_eq {vs : List Value} (h : ItemsExact P vs) :
    itemsHoldBytes vs = false := by
  cases vs with
  | nil => rfl
  | cons v vs =>
      rw [itemsHoldBytes, Exact.holdsBytes_eq h.1, ItemsExact.holdBytes_eq h.2, Bool.or_false]

theorem MembersExact.holdBytes_eq {ms : List (String × Value)}
    (h : MembersExact P ms) : membersHoldBytes ms = false := by
  cases ms with
  | nil => rfl
  | cons m ms =>
      rw [membersHoldBytes, Exact.holdsBytes_eq h.1, MembersExact.holdBytes_eq h.2, Bool.or_false]

end

mutual

theorem Exact.allFloats {v : Value} (h : v.Exact P) (Q : Float → Prop) : v.AllFloats Q := by
  cases v with
  | float f => exact h.elim
  | list items => exact ItemsExact.allFloats h Q
  | object members => exact MembersExact.allFloats h.2 Q
  | _ => trivial

theorem ItemsExact.allFloats {vs : List Value} (h : ItemsExact P vs) (Q : Float → Prop) :
    ItemsAllFloats Q vs := by
  cases vs with
  | nil => trivial
  | cons v vs => exact ⟨Exact.allFloats h.1 Q, ItemsExact.allFloats h.2 Q⟩

theorem MembersExact.allFloats {ms : List (String × Value)} (h : MembersExact P ms)
    (Q : Float → Prop) : MembersAllFloats Q ms := by
  cases ms with
  | nil => trivial
  | cons m ms => exact ⟨Exact.allFloats h.1 Q, MembersExact.allFloats h.2 Q⟩

end

theorem itemsExact_iff {vs : List Value} :
    ItemsExact P vs ↔ ∀ v ∈ vs, v.Exact P := by
  induction vs with
  | nil => simp [ItemsExact]
  | cons v vs ih => rw [ItemsExact, ih, List.forall_mem_cons]

end Json.Value

end SpanStore
