import SpanStore.Text.Hex

namespace SpanStore.Text

theorem hexValue?_eq_some {c : Char} {d : Nat} (h : hexValue? c = some d) :
    c.toNat < 0x80 ∧ d < 16 := by
  simp only [hexValue?, Char.isDigit_iff_toNat] at h
  split at h
  · rename_i hdigit
    obtain rfl := Option.some.inj h
    have : c.toNat ≤ 0x39 := hdigit.2
    omega
  split at h
  · rename_i hlower
    obtain rfl := Option.some.inj h
    have : c.toNat ≤ 0x66 := hlower.2
    omega
  split at h
  · rename_i hupper
    obtain rfl := Option.some.inj h
    have : c.toNat ≤ 0x46 := hupper.2
    omega
  · cases h

theorem hexValue?_digitChar : ∀ n < 16, hexValue? n.digitChar = some n := by decide

theorem length_hexDigits (width n : Nat) : (hexDigits width n).length = width := by
  induction width generalizing n with
  | zero => rfl
  | succ width ih => simp [hexDigits, ih]

end SpanStore.Text
