-- Reading values from a buffer. A count is believed only as far as the rest of the buffer
-- can hold what it announces.
import WireSchema.Layout.Document
import WireSchema.Text.Utf8
import WireSchema.Wire.Scalar

namespace WireSchema.Wire

/-! ## Places in a buffer -/

/-- A place in a buffer: how long the buffer is, where the place is, and the bytes from there
on. -/
structure Input where
  len : Nat
  offset : Nat
  rest : List UInt8

namespace Input

/-- The place at an offset of a buffer. -/
def ofBuffer (buf : List UInt8) (offset : Nat) : Input := ⟨buf.length, offset, buf.drop offset⟩

/-- The place some bytes further. -/
def advance (input : Input) (n : Nat) : Input :=
  ⟨input.len, input.offset + n, input.rest.drop n⟩

/-- Room for a block from the place on. -/
def require (input : Input) (need : Nat) (path : Path) : Except WireError Unit :=
  if input.offset + need ≤ input.len then .ok ()
  else .error (.outOfBounds path input.offset need input.len)

/-- Takes a block. -/
def take (input : Input) (need : Nat) (path : Path) : Except WireError (List UInt8 × Input) := do
  input.require need path
  return (input.rest.take need, input.advance need)

end Input

/-! ## Parts of a value -/

/-- Reads a scalar. -/
def readScalar (scalar : Scalar) (path : Path) (input : Input) :
    Except WireError (Value × Input) := do
  let (bs, input) ← input.take scalar.width path
  return (scalar.ofBits (Bytes.ofLittle bs), input)

/-- Reads a count. -/
def readCount (path : Path) (input : Input) : Except WireError (Nat × Input) := do
  let (bs, input) ← input.take countWidth path
  return (Bytes.ofLittle bs, input)

/-- Reads a block behind its length. -/
def readCounted (path : Path) (input : Input) : Except WireError (List UInt8 × Input) := do
  let (n, input) ← readCount path input
  input.take n path

/-- Reads the count of elements that take at least `width` bytes each. -/
def readElementCount (width : UInt64) (path : Path) (input : Input) :
    Except WireError (Nat × Input) := do
  let (n, input) ← readCount path input
  if width = 0 then
    if n > maxEmptyElements then throw (.countLimit path n)
  else
    input.require (Width.saturate (width.toNat * n)).toNat path
  return (n, input)

/-- Reads numbered parts one after the other. `seen` holds those before, the last first. -/
def readMany {α : Type} (read : Nat → Input → Except WireError (α × Input)) :
    Nat → Nat → List α → Input → Except WireError (List α × Input)
  | 0, _, seen, input => .ok (seen.reverse, input)
  | n + 1, i, seen, input =>
    match read i input with
    | .ok (x, input) => readMany read n (i + 1) (x :: seen) input
    | .error e => .error e

/-- Reads named parts one after the other. -/
def readFields (read : FieldLayout → Input → Except WireError (Value × Input)) :
    List FieldLayout → Input → Except WireError (List (String × Value) × Input)
  | [], input => .ok ([], input)
  | f :: fs, input => do
    let (v, input) ← read f input
    let (vs, input) ← readFields read fs input
    return ((f.name, v) :: vs, input)

/-! ## Values -/

/-- A way to read embedded structs: the name, where the value is, the place in the buffer. -/
abbrev ReadStruct := String → Path → Input → Except WireError (Value × Input)

/-- Reads a value. `widths` are the fewest bytes of the structs. -/
def read (widths : MinWidths) (onStruct : ReadStruct) :
    Layout → Path → Input → Except WireError (Value × Input)
  | .fixed scalar, path, input => readScalar scalar path input
  | .nullable scalar, path, input => do
    let (flag, input) ← input.take flagWidth path
    if Bytes.ofLittle flag = 0 then return (.null, input)
    else readScalar scalar path input
  | .string, path, input => do
    let (bs, after) ← readCounted path input
    match Text.ofBytes? bs with
    | some s => return (.string s, after)
    | none => throw (.invalidUtf8 path input.offset)
  | .fixedBytes len, path, input => do
    let (bs, input) ← input.take len.toNat path
    return (.bytes bs, input)
  | .dynamicBytes, path, input => do
    let (bs, input) ← readCounted path input
    return (.bytes bs, input)
  | .fixedArray len elem, path, input => do
    let (xs, input) ←
      readMany (fun i => read widths onStruct elem (path.index i)) len.toNat 0 [] input
    return (.array xs, input)
  | .dynamicArray elem, path, input => do
    let (n, input) ← readElementCount (elem.minWidth widths.get) path input
    let (xs, input) ←
      readMany (fun i => read widths onStruct elem (path.index i)) n 0 [] input
    return (.array xs, input)
  | .map key value, path, input => do
    let width := Width.saturatingAdd (key.minWidth widths.get) (value.minWidth widths.get)
    let (n, input) ← readElementCount width path input
    let (es, input) ← readMany (fun i input => do
      let (k, input) ← read widths onStruct key (path.index i) input
      let (v, input) ← read widths onStruct value (path.index i) input
      return ((k, v), input)) n 0 [] input
    return (.map es, input)
  | .embedded type, path, input => onStruct type path input

/-- Reads a value of a struct, which may hold structs down to the given depth. -/
def readStruct (d : DocumentLayout) (widths : MinWidths) : Nat → ReadStruct
  | 0, _, path, _ => .error (.depthExceeded path)
  | room + 1, type, path, input =>
    match d.get? type with
    | none => .error (.unknownType type)
    | some s => do
      let (fields, input) ← readFields (fun f =>
        read widths (readStruct d widths room) f.layout (path.field f.name)) s.fields input
      return (.struct fields, input)

end WireSchema.Wire
