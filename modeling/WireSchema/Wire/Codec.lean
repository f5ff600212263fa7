-- The codec of a document: sizes, writing and reading of values by the names of structs.
import WireSchema.Value.Json
import WireSchema.Wire.Read
import WireSchema.Wire.Write

namespace WireSchema

/-- The layouts of a document and the fewest bytes of its structs. -/
structure Codec where
  layouts : DocumentLayout
  widths : MinWidths

namespace Codec

/-- The codec of layouts. -/
def ofLayout (d : DocumentLayout) : Codec := ⟨d, d.minWidths⟩

/-- The codec of a document. -/
def ofDocument (doc : Document) : Except WireError Codec :=
  match doc.layout with
  | .ok d => .ok (ofLayout d)
  | .error e => .error (.layout e)

/-- The size of a value of a struct. -/
def size (c : Codec) (type : String) (v : Value) : Except WireError Nat :=
  Wire.structSize c.layouts maxDepth type v (.start type)

/-- What a writer of a value puts out. -/
def output (c : Codec) (type : String) (v : Value) : Wire.Output :=
  Wire.writeStruct c.layouts maxDepth type v (.start type)

/-- Writes a value into a buffer: the buffer, and where the value ends or why it does not. -/
def marshal (c : Codec) (type : String) (v : Value) (buf : List UInt8) (offset : Nat) :
    List UInt8 × Except WireError Nat :=
  (c.output type v).into buf offset

/-- The bytes of a value: a buffer of its size, with the value in it. -/
def encode (c : Codec) (type : String) (v : Value) : Except WireError (List UInt8) := do
  let n ← c.size type v
  match c.marshal type v (List.replicate n 0) 0 with
  | (buf, .ok _) => return buf
  | (_, .error e) => throw e

/-- Reads a value at an offset, and the offset after it. -/
def unmarshal (c : Codec) (type : String) (buf : List UInt8) (offset : Nat) :
    Except WireError (Value × Nat) := do
  let input := Wire.Input.ofBuffer buf offset
  let (v, input) ← Wire.readStruct c.layouts c.widths maxDepth type (.start type) input
  return (v, input.offset)

/-- Reads a value that takes the whole buffer. -/
def decode (c : Codec) (type : String) (buf : List UInt8) : Except WireError Value := do
  let (v, consumed) ← c.unmarshal type buf 0
  if consumed = buf.length then return v
  else throw (.trailingBytes type consumed buf.length)

/-- The value of a struct in a JSON tree. -/
def valueOfJson (c : Codec) (type : String) (tree : Json) : Except WireError Value :=
  Value.ofJson c.layouts (.embedded type) (.start type) tree

/-- What reading answers for each shorter start of a buffer. -/
def truncations (c : Codec) (type : String) (buf : List UInt8) : List (Except WireError Nat) :=
  (List.range buf.length).map fun n => (c.unmarshal type (buf.take n) 0).map (·.2)

end Codec

end WireSchema
