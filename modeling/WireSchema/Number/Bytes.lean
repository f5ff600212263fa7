-- Whole numbers as bytes, the lowest first.

namespace WireSchema

/-- Powers of whole numbers, the same whatever else is loaded beside. -/
scoped instance (priority := 2000) wholePow : Pow Nat Nat := instPowNat

namespace Bytes

/-- The lowest bytes of a number. -/
def little : Nat → Nat → List UInt8
  | 0, _ => []
  | width + 1, n => UInt8.ofNat (n % 256) :: little width (n / 256)

/-- The number that bytes stand for. -/
def ofLittle : List UInt8 → Nat
  | [] => 0
  | b :: bs => b.toNat + 256 * ofLittle bs

/-- The bits of a number in a word of the width, as a number that is not negative. -/
def wrap (width : Nat) (n : Int) : Nat := (n % (2 ^ (8 * width) : Nat)).toNat

/-- The signed number that bits of a word of the width stand for. -/
def signed (width : Nat) (bits : Nat) : Int :=
  if 2 * bits < 2 ^ (8 * width) then bits else (bits : Int) - (2 ^ (8 * width) : Nat)

end Bytes

end WireSchema
