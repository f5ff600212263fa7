-- The laws of numbers as bytes: a number comes back from its bytes when they are enough, and
-- a signed number comes back from its bits. Bytes and bits come back from what they stand for.
import WireSchema.Number.Bytes

namespace WireSchema.Bytes

@[simp]
theorem length_little (width n : Nat) : (little width n).length = width := by
  induction width generalizing n with
  | zero => rfl
  | succ width ih => simp [little, ih]

/-- The bytes of a number stand for it, but for what does not fit them. -/
theorem ofLittle_little_mod (width n : Nat) : ofLittle (little width n) = n % 2 ^ (8 * width) := by
  induction width generalizing n with
  | zero => simp [little, ofLittle, Nat.mod_one]
  | succ width ih =>
    have hpow : 2 ^ (8 * (width + 1)) = 256 * 2 ^ (8 * width) := by
      rw [Nat.mul_succ, Nat.pow_add, Nat.mul_comm]
    have hbyte : (UInt8.ofNat (n % 256)).toNat = n % 256 :=
      UInt8.toNat_ofNat_of_lt' (Nat.mod_lt n (by decide))
    rw [little, ofLittle, ih, hbyte, hpow, Nat.mod_mul]

theorem ofLittle_little {width n : Nat} (h : n < 2 ^ (8 * width)) :
    ofLittle (little width n) = n := by
  rw [ofLittle_little_mod, Nat.mod_eq_of_lt h]

theorem ofLittle_lt (bs : List UInt8) : ofLittle bs < 2 ^ (8 * bs.length) := by
  induction bs with
  | nil => simp [ofLittle]
  | cons b bs ih =>
    have hb : b.toNat < 256 := b.toNat_lt
    have hpow : 2 ^ (8 * (bs.length + 1)) = 256 * 2 ^ (8 * bs.length) := by
      rw [Nat.mul_succ, Nat.pow_add, Nat.mul_comm]
    rw [ofLittle, List.length_cons, hpow]
    omega

/-- Bytes come back from the number that they stand for. -/
theorem little_ofLittle (bs : List UInt8) : little bs.length (ofLittle bs) = bs := by
  induction bs with
  | nil => rfl
  | cons b bs ih =>
    have hb : b.toNat < 256 := b.toNat_lt
    have hlow : (b.toNat + 256 * ofLittle bs) % 256 = b.toNat := by omega
    have hhigh : (b.toNat + 256 * ofLittle bs) / 256 = ofLittle bs := by omega
    rw [ofLittle, List.length_cons, little, hlow, hhigh, ih, UInt8.ofNat_toNat]

theorem wrap_lt (width : Nat) (n : Int) : wrap width n < 2 ^ (8 * width) := by
  have hpos : (0 : Int) < (2 ^ (8 * width) : Nat) := by
    exact_mod_cast Nat.two_pow_pos (8 * width)
  have hlt := Int.emod_lt_of_pos n hpos
  have hnonneg := Int.emod_nonneg n (Int.ne_of_gt hpos)
  unfold wrap
  omega

/-- Bits of a word stand for the signed number that they are the bits of. -/
theorem signed_wrap {width : Nat} {n : Int} (hw : 0 < width)
    (hlo : -(2 ^ (8 * width - 1) : Nat) ≤ n) (hhi : n < (2 ^ (8 * width - 1) : Nat)) :
    signed width (wrap width n) = n := by
  have hhalf : 2 ^ (8 * width) = 2 * 2 ^ (8 * width - 1) := by
    rw [← Nat.pow_add_one', show 8 * width - 1 + 1 = 8 * width by omega]
  unfold signed wrap
  rw [hhalf]
  generalize 2 ^ (8 * width - 1) = half at *
  rcases Int.lt_or_le n 0 with hneg | hpos
  · have hmod : n % ((2 * half : Nat) : Int) = n + 2 * half := by
      rw [← Int.add_mul_emod_self_left n _ 1, Int.emod_eq_of_lt] <;> omega
    rw [hmod]
    split <;> omega
  · have hmod : n % ((2 * half : Nat) : Int) = n := Int.emod_eq_of_lt hpos (by omega)
    rw [hmod]
    split <;> omega

/-- The number that bits of a word stand for lies in the range of the word. -/
theorem signed_bounds {width bits : Nat} (hw : 0 < width) (h : bits < 2 ^ (8 * width)) :
    -(2 ^ (8 * width - 1) : Nat) ≤ signed width bits ∧
      signed width bits < (2 ^ (8 * width - 1) : Nat) := by
  have hhalf : 2 ^ (8 * width) = 2 * 2 ^ (8 * width - 1) := by
    rw [← Nat.pow_add_one', show 8 * width - 1 + 1 = 8 * width by omega]
  unfold signed
  rw [hhalf] at h ⊢
  generalize 2 ^ (8 * width - 1) = half at *
  split <;> constructor <;> omega

theorem wrap_signed {width bits : Nat} (h : bits < 2 ^ (8 * width)) :
    wrap width (signed width bits) = bits := by
  unfold signed wrap
  split
  · rw [Int.emod_eq_of_lt (by omega) (by exact_mod_cast h), Int.toNat_natCast]
  · rw [Int.sub_emod_right, Int.emod_eq_of_lt (by omega) (by exact_mod_cast h), Int.toNat_natCast]

end WireSchema.Bytes
