-- Types, fields and values of a schema as they are spelled in C# code.
import WireSchema.Layout.Basic

namespace WireSchema.Managed

/-- The type of a scalar. -/
def scalarType : Scalar → String
  | .bool => "bool"
  | .i8 => "sbyte"
  | .u8 => "byte"
  | .i16 => "short"
  | .u16 => "ushort"
  | .i32 => "int"
  | .u32 => "uint"
  | .i64 => "long"
  | .u64 => "ulong"
  | .f32 => "float"
  | .f64 => "double"

/-- The type of what a descriptor lacks. -/
def anyType : String := "object"

/-- The type of an array with a length. -/
def arrayType (elem : String) : String := elem ++ "[]"

/-- The type of an array without a length. -/
def listType (elem : String) : String := "List<" ++ elem ++ ">"

/-- The type of a map. -/
def mapType (key value : String) : String := "Dictionary<" ++ key ++ ", " ++ value ++ ">"

/-- The type of a descriptor. A name that it carries is its type, whatever its kind. -/
def typeName : Descriptor → String
  | ⟨kind, elem, key, len, name⟩ =>
    match name.filter (! ·.isEmpty) with
    | some own => own
    | none =>
      let elemType := match elem with
        | some e => typeName e
        | none => anyType
      let keyType := match key with
        | some k => typeName k
        | none => anyType
      match kind with
      | .string => "string"
      | .bytes => "byte[]"
      | .map => mapType keyType elemType
      | .array => if len != 0 then arrayType elemType else listType elemType
      | .pointer =>
        if elem.any (·.kind.isScalar) then "Nullable<" ++ elemType ++ ">" else elemType
      | .struct => anyType
      | scalar =>
        match Scalar.ofKind? scalar with
        | some s => scalarType s
        | none => anyType

/-- Takes the empty brackets from the end of a type: the rest, and how many there were. The
text is given from its end. -/
def stripRanks : List Char → List Char × Nat
  | ']' :: '[' :: rest =>
    let (base, ranks) := stripRanks rest
    (base, ranks + 1)
  | base => (base, 0)

/-- A new array of a length. The length stands in the outermost brackets. -/
def newArray (elemType : String) (len : UInt32) : String :=
  let (base, ranks) := stripRanks elemType.toList.reverse
  "new " ++ String.ofList base.reverse ++ "[" ++ toString len.toNat ++ "]" ++
    String.join (List.replicate ranks "[]")

/-- What a field starts with, when it does not start with nothing. -/
def initializer? (type : Descriptor) : Option String :=
  let ty := type.unwrapped
  match ty.kind with
  | .array =>
    if ty.isFixed then some (newArray ((ty.elem.map typeName).getD anyType) ty.len)
    else some ("new " ++ typeName ty ++ "()")
  | .map | .struct => some ("new " ++ typeName ty ++ "()")
  | .bytes => if ty.isFixed then some ("new byte[" ++ toString ty.len.toNat ++ "]") else none
  | _ => none

end WireSchema.Managed
