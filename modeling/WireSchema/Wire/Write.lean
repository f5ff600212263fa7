-- Measuring and writing values. A writer puts out blocks in order until it is done or finds
-- an error, and only then are the blocks put into a buffer, as far as they fit.
import WireSchema.Layout.Document
import WireSchema.Text.Utf8
import WireSchema.Wire.Scalar

namespace WireSchema

namespace Wire

/-! ## Parts of a value -/

/-- The bytes of a scalar at a place. -/
def scalarBytes (scalar : Scalar) (v : Value) (path : Path) : Except WireError (List UInt8) :=
  (scalar.bytes v).mapError (·.at path scalar v)

/-- The error of a value of another kind. -/
def mismatch (path : Path) (expected : String) (v : Value) : WireError :=
  .typeMismatch path expected v.kindName

/-- The text of a string. -/
def text (v : Value) (path : Path) : Except WireError (List UInt8) :=
  match v with
  | .string s => .ok (Text.bytes s)
  | _ => .error (mismatch path "string" v)

/-- The bytes of a byte block. -/
def block (v : Value) (path : Path) : Except WireError (List UInt8) :=
  match v with
  | .bytes bs => .ok bs
  | _ => .error (mismatch path "bytes" v)

/-- The elements of an array. -/
def items (v : Value) (path : Path) : Except WireError (List Value) :=
  match v with
  | .array xs => .ok xs
  | _ => .error (mismatch path "array" v)

/-- The entries of a map. -/
def entries (v : Value) (path : Path) : Except WireError (List (Value × Value)) :=
  match v with
  | .map es => .ok es
  | _ => .error (mismatch path "map" v)

/-- A count that fits its place on the wire. -/
def count (n : Nat) (path : Path) : Except WireError Nat :=
  if n < UInt32.size then .ok n else .error (.countOverflow path n)

/-- A length that is the one of the layout. -/
def exactLen (expected : UInt32) (found : Nat) (path : Path) : Except WireError Unit :=
  if found = expected.toNat then .ok () else .error (.lengthMismatch path expected.toNat found)

/-- The values of a struct's fields, in the order of the layout. Every field is there, and no
other. -/
def fieldValues (s : StructLayout) (v : Value) (path : Path) :
    Except WireError (List (FieldLayout × Value)) :=
  match v with
  | .struct fields =>
    match fields.find? fun f => !s.fields.any (·.name == f.1) with
    | some f => .error (.unknownField path f.1)
    | none => s.fields.mapM fun f =>
      match v.field? f.name with
      | some x => .ok (f, x)
      | none => .error (.missingField path f.name)
  | _ => .error (mismatch path "struct" v)

/-- The layout of a struct that is there. -/
def lookup (d : DocumentLayout) (type : String) : Except WireError StructLayout :=
  match d.get? type with
  | some s => .ok s
  | none => .error (.unknownType type)

/-- The sum of the sizes of numbered parts. -/
def sumSizes {α : Type} (size : Nat → α → Except WireError Nat) (xs : List α) :
    Except WireError Nat :=
  xs.zipIdx.foldlM (fun total x => return total + (← size x.2 x.1)) 0

/-! ## Size -/

/-- A way to deal with embedded structs: the name, the value, where it is. -/
abbrev OnStruct (α : Type) := String → Value → Path → α

/-- The size of a value. -/
def size (onStruct : OnStruct (Except WireError Nat)) :
    Layout → Value → Path → Except WireError Nat
  | .fixed scalar, v, path => do
    let _ ← scalarBytes scalar v path
    return scalar.width
  | .nullable scalar, v, path =>
    match v with
    | .null => return flagWidth
    | v => do
      let _ ← scalarBytes scalar v path
      return flagWidth + scalar.width
  | .string, v, path => do
    let n ← count (← text v path).length path
    return countWidth + n
  | .fixedBytes len, v, path => do
    let bs ← block v path
    exactLen len bs.length path
    return bs.length
  | .dynamicBytes, v, path => do
    let n ← count (← block v path).length path
    return countWidth + n
  | .fixedArray len elem, v, path => do
    let xs ← items v path
    exactLen len xs.length path
    sumSizes (fun i x => size onStruct elem x (path.index i)) xs
  | .dynamicArray elem, v, path => do
    let xs ← items v path
    let _ ← count xs.length path
    return countWidth + (← sumSizes (fun i x => size onStruct elem x (path.index i)) xs)
  | .map key value, v, path => do
    let es ← entries v path
    let _ ← count es.length path
    return countWidth + (← sumSizes (fun i e => do
      return (← size onStruct key e.1 (path.index i)) + (← size onStruct value e.2 (path.index i)))
      es)
  | .embedded type, v, path => onStruct type v path

/-- The size of a value of a struct, which may hold structs down to the given depth. -/
def structSize (d : DocumentLayout) : Nat → OnStruct (Except WireError Nat)
  | 0, _, _, path => .error (.depthExceeded path)
  | room + 1, type, v, path => do
    let s ← lookup d type
    let fields ← fieldValues s v path
    sumSizes (fun _ f => size (structSize d room) f.1.layout f.2 (path.field f.1.name)) fields

/-! ## Writing -/

/-- A block of bytes and the value that it belongs to. -/
structure Chunk where
  path : Path
  bytes : List UInt8

/-- What a writer puts out, and the error that stopped it. -/
structure Output where
  chunks : List Chunk
  fault : Option WireError

namespace Output

/-- Nothing. -/
def done : Output := ⟨[], none⟩

/-- One block. -/
def put (path : Path) (bytes : List UInt8) : Output := ⟨[⟨path, bytes⟩], none⟩

/-- An error. -/
def fail (e : WireError) : Output := ⟨[], some e⟩

/-- One output after the other, unless the first was stopped. -/
def andThen (a b : Output) : Output :=
  match a.fault with
  | some _ => a
  | none => ⟨a.chunks ++ b.chunks, b.fault⟩

/-- What is put out with something that may be missing. -/
def given {α : Type} (x : Except WireError α) (f : α → Output) : Output :=
  match x with
  | .ok a => f a
  | .error e => fail e

/-- The outputs of numbered parts, one after the other. -/
def forEach {α : Type} (write : Nat → α → Output) (xs : List α) : Output :=
  xs.zipIdx.foldr (fun x rest => (write x.2 x.1).andThen rest) done

/-- The bytes of all blocks. -/
def bytes (out : Output) : List UInt8 := out.chunks.flatMap Chunk.bytes

end Output

open Output

/-- A count in front of a block. -/
def putCount (path : Path) (n : Nat) : Output := .put path (Bytes.little countWidth n)

/-- Writes a block behind its length. -/
def writeCounted (path : Path) (bs : List UInt8) : Output :=
  given (count bs.length path) fun n => (putCount path n).andThen (.put path bs)

/-- Writes a value. -/
def write (onStruct : OnStruct Output) : Layout → Value → Path → Output
  | .fixed scalar, v, path => given (scalarBytes scalar v path) (.put path)
  | .nullable scalar, v, path =>
    match v with
    | .null => .put path [0]
    | v => given (scalarBytes scalar v path) fun bs =>
      (Output.put path [1]).andThen (.put path bs)
  | .string, v, path => given (text v path) (writeCounted path)
  | .fixedBytes len, v, path =>
    given (block v path) fun bs => given (exactLen len bs.length path) fun _ => .put path bs
  | .dynamicBytes, v, path => given (block v path) (writeCounted path)
  | .fixedArray len elem, v, path =>
    given (items v path) fun xs => given (exactLen len xs.length path) fun _ =>
      forEach (fun i x => write onStruct elem x (path.index i)) xs
  | .dynamicArray elem, v, path =>
    given (items v path) fun xs => given (count xs.length path) fun n =>
      (putCount path n).andThen (forEach (fun i x => write onStruct elem x (path.index i)) xs)
  | .map key value, v, path =>
    given (entries v path) fun es => given (count es.length path) fun n =>
      (putCount path n).andThen (forEach (fun i e =>
        (write onStruct key e.1 (path.index i)).andThen
          (write onStruct value e.2 (path.index i))) es)
  | .embedded type, v, path => onStruct type v path

/-- Writes a value of a struct, which may hold structs down to the given depth. -/
def writeStruct (d : DocumentLayout) : Nat → OnStruct Output
  | 0, _, _, path => fail (.depthExceeded path)
  | room + 1, type, v, path =>
    given (lookup d type) fun s => given (fieldValues s v path) fun fields =>
      forEach (fun _ f => write (writeStruct d room) f.1.layout f.2 (path.field f.1.name)) fields

/-! ## Buffers -/

/-- The buffer with bytes at an offset, where they fit. -/
def overwrite (buf : List UInt8) (offset : Nat) (bs : List UInt8) : List UInt8 :=
  buf.take offset ++ bs ++ buf.drop (offset + bs.length)

/-- The bytes of the blocks before the first that does not fit a buffer of a length, and
where they end or why they stop. -/
def fitting (len : Nat) : Nat → List Chunk → List UInt8 × Except WireError Nat
  | offset, [] => ([], .ok offset)
  | offset, c :: cs =>
    if offset + c.bytes.length ≤ len then
      let (bs, r) := fitting len (offset + c.bytes.length) cs
      (c.bytes ++ bs, r)
    else ([], .error (.outOfBounds c.path offset c.bytes.length len))

/-- Puts an output into a buffer: the buffer, and where the output ends or why it did not.
Blocks before the first that does not fit stay there. -/
def Output.into (out : Output) (buf : List UInt8) (offset : Nat) :
    List UInt8 × Except WireError Nat :=
  let (bs, r) := fitting buf.length offset out.chunks
  (overwrite buf offset bs,
    match r, out.fault with
    | .ok _, some e => .error e
    | r, _ => r)

end Wire

end WireSchema
