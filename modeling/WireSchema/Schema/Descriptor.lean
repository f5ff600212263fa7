-- The types that a schema can give to a field: a kind, and for the container kinds the
-- descriptors of what they hold.

namespace WireSchema

/-- The kinds of schema types. -/
inductive Kind where
  | int | uint | int8 | uint8 | int16 | uint16 | int32 | uint32 | int64 | uint64
  | float32 | float64 | string | bytes | bool | array | map | pointer | struct
  deriving DecidableEq

namespace Kind

/-- Every kind, in the order of the format. -/
def all : List Kind :=
  [.int, .uint, .int8, .uint8, .int16, .uint16, .int32, .uint32, .int64, .uint64,
    .float32, .float64, .string, .bytes, .bool, .array, .map, .pointer, .struct]

/-- The spelling in a schema. -/
def name : Kind → String
  | int => "int"
  | uint => "uint"
  | int8 => "int8"
  | uint8 => "uint8"
  | int16 => "int16"
  | uint16 => "uint16"
  | int32 => "int32"
  | uint32 => "uint32"
  | int64 => "int64"
  | uint64 => "uint64"
  | float32 => "float32"
  | float64 => "float64"
  | string => "string"
  | bytes => "bytes"
  | bool => "bool"
  | array => "array"
  | map => "map"
  | pointer => "pointer"
  | struct => "struct"

/-- The spelling in messages. -/
def label : Kind → String
  | int => "Int"
  | uint => "Uint"
  | int8 => "Int8"
  | uint8 => "Uint8"
  | int16 => "Int16"
  | uint16 => "Uint16"
  | int32 => "Int32"
  | uint32 => "Uint32"
  | int64 => "Int64"
  | uint64 => "Uint64"
  | float32 => "Float32"
  | float64 => "Float64"
  | string => "String"
  | bytes => "Bytes"
  | bool => "Bool"
  | array => "Array"
  | map => "Map"
  | pointer => "Pointer"
  | struct => "Struct"

/-- The kind with the given spelling in a schema. -/
def ofName? (s : String) : Option Kind := all.find? (·.name == s)

/-- Numbers and booleans. -/
def isScalar : Kind → Bool
  | string | bytes | array | map | pointer | struct => false
  | _ => true

/-- Kinds that hold elements. -/
def needsElem : Kind → Bool
  | array | map | pointer => true
  | _ => false

/-- Kinds that hold keys. -/
def needsKey : Kind → Bool
  | map => true
  | _ => false

end Kind

/-- The type of a field. A length of zero is no length. -/
structure Descriptor where
  kind : Kind
  elem : Option Descriptor
  key : Option Descriptor
  len : UInt32
  name : Option String

namespace Descriptor

/-- A descriptor of a kind that needs nothing else. -/
def ofKind (kind : Kind) : Descriptor := ⟨kind, none, none, 0, none⟩

/-- The name that is there and not empty. -/
def name? (ty : Descriptor) : Option String := ty.name.filter (! ·.isEmpty)

/-- The schema fixes the length. -/
def isFixed (ty : Descriptor) : Bool := ty.len != 0

/-- Takes away pointers, all but those to a scalar. -/
def unwrapped : Descriptor → Descriptor
  | ⟨.pointer, some pointee, key, len, name⟩ =>
    if pointee.kind.isScalar then ⟨.pointer, some pointee, key, len, name⟩ else pointee.unwrapped
  | ty => ty

end Descriptor

end WireSchema
