-- Wire layouts: how a value of each schema type lies on the wire. A descriptor has one
-- layout, or it lacks something that the layout needs.
import WireSchema.Number.Width
import WireSchema.Schema.Descriptor

namespace WireSchema

/-- The scalars of the wire, each with a width of its own. -/
inductive Scalar where
  | bool | i8 | u8 | i16 | u16 | i32 | u32 | i64 | u64 | f32 | f64
  deriving DecidableEq

namespace Scalar

/-- Every scalar, in the order of the format. -/
def all : List Scalar := [.bool, .i8, .u8, .i16, .u16, .i32, .u32, .i64, .u64, .f32, .f64]

/-- The spelling in a layout. -/
def name : Scalar → String
  | bool => "bool"
  | i8 => "i8"
  | u8 => "u8"
  | i16 => "i16"
  | u16 => "u16"
  | i32 => "i32"
  | u32 => "u32"
  | i64 => "i64"
  | u64 => "u64"
  | f32 => "f32"
  | f64 => "f64"

/-- The spelling in messages. -/
def label : Scalar → String
  | bool => "Bool"
  | i8 => "I8"
  | u8 => "U8"
  | i16 => "I16"
  | u16 => "U16"
  | i32 => "I32"
  | u32 => "U32"
  | i64 => "I64"
  | u64 => "U64"
  | f32 => "F32"
  | f64 => "F64"

/-- The scalar with the given spelling in a layout. -/
def ofName? (s : String) : Option Scalar := all.find? (·.name == s)

/-- The width in bytes. -/
def width : Scalar → Nat
  | bool | i8 | u8 => 1
  | i16 | u16 => 2
  | i32 | u32 | f32 => 4
  | i64 | u64 | f64 => 8

/-- The scalar of a kind; the kinds without a width of their own are as wide as a word. -/
def ofKind? : Kind → Option Scalar
  | .bool => some bool
  | .int8 => some i8
  | .uint8 => some u8
  | .int16 => some i16
  | .uint16 => some u16
  | .int32 => some i32
  | .uint32 => some u32
  | .int | .int64 => some i64
  | .uint | .uint64 => some u64
  | .float32 => some f32
  | .float64 => some f64
  | _ => none

end Scalar

/-- The width of the count or length in front of strings, bytes, arrays and maps. -/
def countWidth : Nat := 4

/-- The width of the flag in front of a scalar that may be absent. -/
def flagWidth : Nat := 1

/-- The most elements that a reader accepts when they take no bytes. -/
def maxEmptyElements : Nat := 65536

/-- What a descriptor lacks. -/
inductive LayoutError where
  | missingElem (kind : Kind)
  | missingKey
  | missingStructName
  /-- The error of a field of a struct. -/
  | field (owner name : String) (cause : LayoutError)
  deriving DecidableEq

/-- The wording of a layout error. -/
def LayoutError.message : LayoutError → String
  | missingElem kind => kind.label ++ " descriptor is missing its elem type"
  | missingKey => "map descriptor is missing its key type"
  | missingStructName => "struct descriptor is missing its name"
  | field owner name cause => "field '" ++ owner ++ "." ++ name ++ "': " ++ cause.message

/-- How the outermost level of a type lies on the wire, with the descriptors inside it. -/
inductive Strategy where
  | fixed (scalar : Scalar)
  | nullable (scalar : Scalar)
  | string
  | fixedBytes (len : UInt32)
  | dynamicBytes
  | fixedArray (len : UInt32) (elem : Descriptor)
  | dynamicArray (elem : Descriptor)
  | map (key value : Descriptor)
  | embedded (type : String)

namespace Descriptor

/-- Classifies the outermost level of a type. A pointer to a scalar may be absent; any other
pointer is what it points to. -/
def classify : Descriptor → Except LayoutError Strategy
  | ⟨.string, _, _, _, _⟩ => .ok .string
  | ⟨.bytes, _, _, len, _⟩ => .ok (if len != 0 then .fixedBytes len else .dynamicBytes)
  | ⟨.array, none, _, _, _⟩ => .error (.missingElem .array)
  | ⟨.array, some elem, _, len, _⟩ =>
    .ok (if len != 0 then .fixedArray len elem else .dynamicArray elem)
  | ⟨.map, none, _, _, _⟩ => .error (.missingElem .map)
  | ⟨.map, some _, none, _, _⟩ => .error .missingKey
  | ⟨.map, some value, some key, _, _⟩ => .ok (.map key value)
  | ⟨.pointer, none, _, _, _⟩ => .error (.missingElem .pointer)
  | ⟨.pointer, some pointee, _, _, _⟩ =>
    match Scalar.ofKind? pointee.kind with
    | some scalar => .ok (.nullable scalar)
    | none => pointee.classify
  | ⟨.struct, elem, key, len, name⟩ =>
    match name? ⟨.struct, elem, key, len, name⟩ with
    | some type => .ok (.embedded type)
    | none => .error .missingStructName
  | ⟨kind, _, _, _, _⟩ =>
    match Scalar.ofKind? kind with
    | some scalar => .ok (.fixed scalar)
    | none => .error .missingStructName

end Descriptor

/-- The layout of a type. -/
inductive Layout where
  | fixed (scalar : Scalar)
  | nullable (scalar : Scalar)
  | string
  | fixedBytes (len : UInt32)
  | dynamicBytes
  | fixedArray (len : UInt32) (elem : Layout)
  | dynamicArray (elem : Layout)
  | map (key value : Layout)
  | embedded (type : String)
  deriving DecidableEq

/-- The shape of a type: its layout, with the descriptors that code for it must name. -/
inductive Shape where
  | fixed (scalar : Scalar)
  | nullable (scalar : Scalar)
  | string
  | fixedBytes (len : UInt32)
  | dynamicBytes
  | fixedArray (len : UInt32) (type : Descriptor) (elem : Shape)
  | dynamicArray (type : Descriptor) (elem : Shape)
  | map (keyType valueType : Descriptor) (key value : Shape)
  | embedded (type : Descriptor) (name : String)

namespace Shape

/-- The layout of a shape. -/
def layout : Shape → Layout
  | fixed scalar => .fixed scalar
  | nullable scalar => .nullable scalar
  | string => .string
  | fixedBytes len => .fixedBytes len
  | dynamicBytes => .dynamicBytes
  | fixedArray len _ elem => .fixedArray len elem.layout
  | dynamicArray _ elem => .dynamicArray elem.layout
  | map _ _ key value => .map key.layout value.layout
  | embedded _ name => .embedded name

end Shape

namespace Descriptor

/-- The shape of a type, all the way down. -/
def shape : Descriptor → Except LayoutError Shape
  | ⟨.string, _, _, _, _⟩ => .ok .string
  | ⟨.bytes, _, _, len, _⟩ => .ok (if len != 0 then .fixedBytes len else .dynamicBytes)
  | ⟨.array, none, _, _, _⟩ => .error (.missingElem .array)
  | ⟨.array, some elem, _, len, _⟩ => do
    let e ← elem.shape
    return if len != 0 then .fixedArray len elem.unwrapped e
      else .dynamicArray elem.unwrapped e
  | ⟨.map, none, _, _, _⟩ => .error (.missingElem .map)
  | ⟨.map, some _, none, _, _⟩ => .error .missingKey
  | ⟨.map, some value, some key, _, _⟩ => do
    let k ← key.shape
    let v ← value.shape
    return .map key.unwrapped value.unwrapped k v
  | ⟨.pointer, none, _, _, _⟩ => .error (.missingElem .pointer)
  | ⟨.pointer, some pointee, _, _, _⟩ =>
    match Scalar.ofKind? pointee.kind with
    | some scalar => .ok (.nullable scalar)
    | none => pointee.shape
  | ⟨.struct, elem, key, len, name⟩ =>
    match name? ⟨.struct, elem, key, len, name⟩ with
    | some type => .ok (.embedded ⟨.struct, elem, key, len, name⟩ type)
    | none => .error .missingStructName
  | ⟨kind, _, _, _, _⟩ =>
    match Scalar.ofKind? kind with
    | some scalar => .ok (.fixed scalar)
    | none => .error .missingStructName

/-- The layout of a type. -/
def layout (ty : Descriptor) : Except LayoutError Layout := ty.shape.map Shape.layout

end Descriptor

/-! ## Widths -/

namespace Layout

/-- The width of every value of the layout, when it does not hang on the value and fits a
word. -/
def staticWidth : Layout → Option UInt64
  | fixed scalar => some (.ofNat scalar.width)
  | fixedBytes len => some len.toUInt64
  | fixedArray len elem => elem.staticWidth.bind (Width.checkedMul · len.toUInt64)
  | _ => none

/-- The fewest bytes that a value takes, at most the largest word. `embedded` answers for
structs and may keep what it found. -/
def minWidthM {m : Type → Type} [Monad m] (embedded : String → m UInt64) : Layout → m UInt64
  | fixed scalar => pure (.ofNat scalar.width)
  | nullable _ => pure (.ofNat flagWidth)
  | string | dynamicBytes | dynamicArray _ | map _ _ => pure (.ofNat countWidth)
  | fixedBytes len => pure len.toUInt64
  | fixedArray len elem => do
    return Width.saturatingMul (← elem.minWidthM embedded) len.toUInt64
  | Layout.embedded type => embedded type

/-- The fewest bytes that a value takes, given those of every struct. -/
def minWidth (embedded : String → UInt64) (l : Layout) : UInt64 :=
  Id.run (l.minWidthM fun type => pure (embedded type))

end Layout

end WireSchema
