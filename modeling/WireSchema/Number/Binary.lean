-- Binary floating-point numbers of 64 bits, kept as their bits, and exact conversions:
-- from fractions, to and from 32 bits. Every rounding goes to the nearest number, and a
-- tie to the even one.
import WireSchema.Number.Bytes

namespace WireSchema

/-- A 64-bit floating-point number. Two are equal when their bits are, so a NaN equals itself
and the zeros differ. -/
structure Binary64 where
  bits : UInt64
  deriving DecidableEq

/-- The shape of a binary format: the bits of a full significand, the exponent of the unit of
the smallest numbers, and the bits of infinity without a sign. -/
structure BinaryShape where
  significand : Nat
  lowest : Int
  infinity : Nat

namespace BinaryShape

/-- The 64-bit format. -/
def double : BinaryShape := ⟨53, -1074, 0x7ff0000000000000⟩

/-- The 32-bit format. -/
def single : BinaryShape := ⟨24, -149, 0x7f800000⟩

/-- The whole number nearest to `num / den`, the even one on a tie. -/
def roundDiv (num den : Nat) : Nat :=
  let q := num / den
  let r := num % den
  if 2 * r > den || (2 * r == den && q % 2 == 1) then q + 1 else q

/-- The fraction `num / den` divided by a power of two, as a fraction. -/
def scaled (num den : Nat) (power : Int) : Nat × Nat :=
  if power ≥ 0 then (num, den * 2 ^ power.toNat) else (num * 2 ^ (-power).toNat, den)

/-- The bits, without a sign, of the number nearest to the fraction `num / den`. -/
def nearest (shape : BinaryShape) (num den : Nat) : Nat :=
  if num == 0 then 0
  else
    let low : Int := (num.log2 : Int) - (den.log2 : Int) - shape.significand
    let (n, d) := scaled num den low
    let unit := max shape.lowest (if n ≥ d * 2 ^ shape.significand then low + 1 else low)
    let (n, d) := scaled num den unit
    let steps := (unit - shape.lowest).toNat * 2 ^ (shape.significand - 1)
    min shape.infinity (steps + roundDiv n d)

end BinaryShape

namespace Binary64

/-- The sign bit is set. -/
def isNegative (x : Binary64) : Bool := x.bits.toNat ≥ 2 ^ (63 : Nat)

/-- The bits without the sign. -/
def magnitude (x : Binary64) : Nat := x.bits.toNat % 2 ^ (63 : Nat)

/-- Not a number. -/
def isNaN (x : Binary64) : Bool := x.magnitude > BinaryShape.double.infinity

/-- Neither infinite nor a NaN. -/
def isFinite (x : Binary64) : Bool := x.magnitude < BinaryShape.double.infinity

/-- Equality of numbers: a NaN equals nothing, and the two zeros are equal. -/
def sameNumber (x y : Binary64) : Bool :=
  !x.isNaN && !y.isNaN && (x.bits == y.bits || (x.magnitude == 0 && y.magnitude == 0))

/-- The number with the given sign and remaining bits. -/
def ofParts (negative : Bool) (magnitude : Nat) : Binary64 :=
  ⟨UInt64.ofNat (magnitude + if negative then 2 ^ (63 : Nat) else 0)⟩

/-- The number nearest to a fraction. -/
def ofFraction (negative : Bool) (num den : Nat) : Binary64 :=
  ofParts negative (BinaryShape.double.nearest num den)

/-- The number nearest to a whole number. -/
def ofInt (n : Int) : Binary64 := ofFraction (n < 0) n.natAbs 1

/-- A finite magnitude is `significand * 2 ^ exponent`. -/
def parts (x : Binary64) : Nat × Int :=
  let field : Nat := x.magnitude / 2 ^ (52 : Nat)
  let fraction : Nat := x.magnitude % 2 ^ (52 : Nat)
  if field == 0 then (fraction, -1074) else (fraction + 2 ^ (52 : Nat), (field : Int) - 1075)

/-- The absolute value of a finite number as a fraction. -/
def fraction (x : Binary64) : Nat × Nat :=
  let (m, e) := x.parts
  if e ≥ 0 then (m * 2 ^ e.toNat, 1) else (m, 2 ^ (-e).toNat)

/-- The bits of the nearest 32-bit number. A NaN keeps the upper part of its payload and is
quiet. -/
def toSingleBits (x : Binary64) : UInt32 :=
  let sign : Nat := if x.isNegative then 2 ^ (31 : Nat) else 0
  let magnitude :=
    if x.isNaN then 0x7fc00000 ||| (x.magnitude % 2 ^ (52 : Nat) / 2 ^ (29 : Nat))
    else if !x.isFinite then BinaryShape.single.infinity
    else
      let (num, den) := x.fraction
      BinaryShape.single.nearest num den
  UInt32.ofNat (sign + magnitude)

/-- The number with the given 32-bit bits. A NaN keeps its payload and becomes quiet. -/
def ofSingleBits (bits : UInt32) : Binary64 :=
  let n := bits.toNat
  let negative := decide (n ≥ 2 ^ (31 : Nat))
  let magnitude := n % 2 ^ (31 : Nat)
  let field : Nat := magnitude / 2 ^ (23 : Nat)
  let fraction : Nat := magnitude % 2 ^ (23 : Nat)
  if field == 255 then
    if fraction == 0 then ofParts negative BinaryShape.double.infinity
    else ofParts negative (0x7ff8000000000000 ||| (fraction * 2 ^ (29 : Nat)))
  else
    let (m, e) : Nat × Int :=
      if field == 0 then (fraction, -149) else (fraction + 2 ^ (23 : Nat), (field : Int) - 150)
    if e ≥ 0 then ofFraction negative (m * 2 ^ e.toNat) 1
    else ofFraction negative m (2 ^ (-e).toNat)

end Binary64

end WireSchema
