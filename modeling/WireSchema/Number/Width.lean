-- Byte widths, as the format counts them: 64-bit words. A sum or product that leaves the
-- word fails when it is checked, and stays at the largest word when it saturates.

namespace WireSchema.Width

/-- The largest word. -/
def largest : UInt64 := 0xffffffffffffffff

/-- The word of a number, or the largest word when it is too large. -/
def saturate (n : Nat) : UInt64 := if n < UInt64.size then UInt64.ofNat n else largest

/-- The word of a number that fits. -/
def ofNat? (n : Nat) : Option UInt64 := if n < UInt64.size then some (UInt64.ofNat n) else none

/-- The sum, unless it leaves the word. -/
def checkedAdd (a b : UInt64) : Option UInt64 := ofNat? (a.toNat + b.toNat)

/-- The product, unless it leaves the word. -/
def checkedMul (a b : UInt64) : Option UInt64 := ofNat? (a.toNat * b.toNat)

/-- The sum, at most the largest word. -/
def saturatingAdd (a b : UInt64) : UInt64 := saturate (a.toNat + b.toNat)

/-- The product, at most the largest word. -/
def saturatingMul (a b : UInt64) : UInt64 := saturate (a.toNat * b.toNat)

theorem toNat_saturate (n : Nat) : (saturate n).toNat = min n (UInt64.size - 1) := by
  unfold saturate
  split
  · rename_i h
    rw [UInt64.toNat_ofNat_of_lt' h]
    omega
  · rename_i h
    have : largest.toNat = UInt64.size - 1 := rfl
    omega

theorem ofNat?_eq_some_iff {n : Nat} {w : UInt64} : ofNat? n = some w ↔ w.toNat = n := by
  unfold ofNat?
  split
  · rename_i h
    rw [Option.some.injEq]
    constructor
    · rintro rfl
      exact UInt64.toNat_ofNat_of_lt' h
    · rintro rfl
      exact UInt64.ofNat_toNat
  · rename_i h
    have := w.toNat_lt
    simp only [reduceCtorEq, false_iff]
    intro hw
    exact h (hw ▸ this)

end WireSchema.Width
