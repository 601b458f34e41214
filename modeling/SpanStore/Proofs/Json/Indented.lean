import SpanStore.Proofs.Json.Printing

namespace SpanStore.Json.Printer

open Grammar

theorem blank_newline (depth : Nat) : Blank (newline depth) := by
  intro c hc
  rcases List.mem_cons.mp hc with rfl | hspace
  · exact .inr (.inr (.inl rfl))
  · exact .inl (List.eq_of_mem_replicate hspace)

theorem indentedItems_next (charset : Charset) (depth : Nat) (v : Value) (vs : List Value) :
    indentedItems charset depth false (v :: vs) =
      ',' :: indentedItems charset depth true (v :: vs) := rfl

theorem indentedMembers_next (charset : Charset) (depth : Nat) (m : String × Value)
    (ms : List (String × Value)) :
    indentedMembers charset depth false (m :: ms) =
      ',' :: indentedMembers charset depth true (m :: ms) := rfl

variable (charset : Charset)

mutual

theorem valueText_indented (depth : Nat) (v : Value) (hbytes : v.holdsBytes = false)
    (hfloats : v.AllFloats (Binary64.isFinite ·)) : ValueText v (indented charset depth v) := by
  cases v with
  | null => exact .null
  | bool b =>
      cases b with
      | true => exact .true
      | false => exact .false
  | int n => exact .int (intText_int n)
  | float f => exact .float (floatText_text hfloats)
  | text s => exact .text (stringText_string charset s)
  | bytes bs => cases hbytes
  | list items =>
      cases items with
      | nil => exact .emptyList .nil
      | cons v vs =>
          exact .list (itemsText_indented (depth + 1) (v :: vs) (List.cons_ne_nil v vs) hbytes
            hfloats (blank_newline depth))
  | object members =>
      cases members with
      | nil => exact .emptyObject .nil
      | cons m ms =>
          exact .object (membersText_indented (depth + 1) (m :: ms) (List.cons_ne_nil m ms) hbytes
            hfloats (blank_newline depth))

theorem itemsText_indented (depth : Nat) (vs : List Value) (hne : vs ≠ [])
    (hbytes : Value.itemsHoldBytes vs = false)
    (hfloats : Value.ItemsAllFloats (Binary64.isFinite ·) vs) {w : List Char} (hw : Blank w) :
    ItemsText vs (indentedItems charset depth true vs ++ w) := by
  cases vs with
  | nil => exact absurd rfl hne
  | cons v vs =>
      obtain ⟨hv, hvs⟩ := Bool.or_eq_false_iff.mp hbytes
      have hfirst := valueText_indented depth v hv hfloats.1
      have hline := blank_newline depth
      cases vs with
      | nil =>
          rw [indentedItems, indentedItems, List.append_nil]
          exact .one (.around hline hfirst hw)
      | cons u us =>
          have hrest := itemsText_indented depth (u :: us) (List.cons_ne_nil u us) hvs hfloats.2 hw
          have hpadded : PaddedText v (newline depth ++ indented charset depth v) := by
            simpa using PaddedText.around hline hfirst .nil
          rw [indentedItems, indentedItems_next]
          simpa using ItemsText.more hpadded hrest

theorem membersText_indented (depth : Nat) (ms : List (String × Value)) (hne : ms ≠ [])
    (hbytes : Value.membersHoldBytes ms = false)
    (hfloats : Value.MembersAllFloats (Binary64.isFinite ·) ms) {w : List Char} (hw : Blank w) :
    MembersText ms (indentedMembers charset depth true ms ++ w) := by
  cases ms with
  | nil => exact absurd rfl hne
  | cons m ms =>
      obtain ⟨hv, hms⟩ := Bool.or_eq_false_iff.mp hbytes
      have hname := stringText_string charset m.1
      have hfirst := valueText_indented depth m.2 hv hfloats.1
      have hline := blank_newline depth
      have hspace : Blank [' '] := List.forall_mem_singleton.mpr (.inl rfl)
      cases ms with
      | nil =>
          simpa [indentedMembers] using
            MembersText.one hline hname .nil (.around hspace hfirst hw)
      | cons m' ms =>
          have hrest :=
            membersText_indented depth (m' :: ms) (List.cons_ne_nil m' ms) hms hfloats.2 hw
          rw [indentedMembers, indentedMembers_next]
          simpa using MembersText.more hline hname .nil (.around hspace hfirst .nil) hrest

end

end SpanStore.Json.Printer
