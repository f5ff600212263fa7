-- Layouts as protobuf messages.
import WireSchema.Layout.Document
import WireSchema.Protobuf

namespace WireSchema

open Protobuf

/-- The number of a scalar in messages. -/
def Scalar.index : Scalar → Nat
  | bool => 0
  | i8 => 1
  | u8 => 2
  | i16 => 3
  | u16 => 4
  | i32 => 5
  | u32 => 6
  | i64 => 7
  | u64 => 8
  | f32 => 9
  | f64 => 10

/-- The number of a byte order in messages. -/
def ByteOrder.index : ByteOrder → Nat
  | little => 0
  | big => 1

/-- The message of a scalar: which one, and its width. -/
def Scalar.message (s : Scalar) : List UInt8 := number 1 s.index ++ number 2 s.width

/-- The message of a layout: one field, whose tag says which strategy it is. -/
def Layout.message : Layout → List UInt8
  | fixed scalar => block 1 scalar.message
  | nullable scalar => block 2 scalar.message
  | string => block 3 []
  | fixedBytes len => block 4 (number 1 len.toNat)
  | dynamicBytes => block 5 []
  | fixedArray len elem => block 6 (number 1 len.toNat ++ block 2 elem.message)
  | dynamicArray elem => block 7 (block 2 elem.message)
  | map key value => block 8 (block 1 key.message ++ block 2 value.message)
  | embedded type => block 9 (text 1 type)

/-- The message of a field. -/
def FieldLayout.message (f : FieldLayout) : List UInt8 := text 1 f.name ++ block 2 f.layout.message

/-- The message of a struct. -/
def StructLayout.message (s : StructLayout) : List UInt8 :=
  text 1 s.name ++ s.fields.flatMap fun f => block 2 f.message

/-- The message of a document. -/
def DocumentLayout.message (d : DocumentLayout) : List UInt8 :=
  number 1 d.version.toNat ++ text 2 d.package ++ number 3 d.byteOrder.index ++
    d.structs.flatMap fun s => block 4 s.message

end WireSchema
