-- Scalars on the wire: the bytes of a value, and the value of bits.
import WireSchema.Number.Bytes
import WireSchema.Value.Basic
import WireSchema.Wire.Error

namespace WireSchema.Scalar

/-- Why a value is no value of a scalar. -/
inductive Fault where
  /-- It is not even a number, or no truth value. -/
  | shape
  | range (n : Int)
  deriving DecidableEq

/-- The error of a value at a place. -/
def Fault.at (path : Path) (scalar : Scalar) (v : Value) : Fault → WireError
  | shape => .typeMismatch path (scalar.label ++ " scalar") v.kindName
  | range n => .outOfRange path scalar n

/-- The number of a value that is an integer. -/
def integer : Value → Except Fault Int
  | .int n => .ok n.toInt
  | .uint n => .ok n.toNat
  | _ => .error .shape

/-- The bytes of a signed integer that fits the width. -/
def signedBytes (width : Nat) (v : Value) : Except Fault (List UInt8) := do
  let n ← integer v
  if -(2 ^ (8 * width - 1) : Nat) ≤ n ∧ n < (2 ^ (8 * width - 1) : Nat) then
    return Bytes.little width (Bytes.wrap width n)
  else throw (.range n)

/-- The bytes of an unsigned integer that fits the width. -/
def unsignedBytes (width : Nat) (v : Value) : Except Fault (List UInt8) := do
  let n ← integer v
  if 0 ≤ n ∧ n < (2 ^ (8 * width) : Nat) then
    return Bytes.little width n.toNat
  else throw (.range n)

/-- The floating-point number of a value; integers go to the nearest. -/
def float : Value → Except Fault Binary64
  | .float x => .ok x
  | .int n => .ok (.ofInt n.toInt)
  | .uint n => .ok (.ofInt n.toNat)
  | _ => .error .shape

/-- The bytes of a value of the scalar. -/
def bytes (scalar : Scalar) (v : Value) : Except Fault (List UInt8) :=
  match scalar with
  | .bool =>
    match v with
    | .bool b => .ok [if b then 1 else 0]
    | _ => .error .shape
  | .i8 | .i16 | .i32 | .i64 => signedBytes scalar.width v
  | .u8 | .u16 | .u32 | .u64 => unsignedBytes scalar.width v
  | .f32 => (float v).map fun x => Bytes.little 4 x.toSingleBits.toNat
  | .f64 => (float v).map fun x => Bytes.little 8 x.bits.toNat

/-- The value of a scalar's bits. -/
def ofBits (scalar : Scalar) (bits : Nat) : Value :=
  match scalar with
  | .bool => .bool (bits != 0)
  | .i8 | .i16 | .i32 | .i64 => .int (Int64.ofInt (Bytes.signed scalar.width bits))
  | .u8 | .u16 | .u32 | .u64 => .uint (UInt64.ofNat bits)
  | .f32 => .float (.ofSingleBits (UInt32.ofNat bits))
  | .f64 => .float ⟨UInt64.ofNat bits⟩

end WireSchema.Scalar
