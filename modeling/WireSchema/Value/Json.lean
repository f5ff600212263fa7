-- Values as JSON trees. The tree says nothing of the layout; reading it back follows the
-- layout and takes several spellings.
import WireSchema.Json.Reader
import WireSchema.Layout.Document
import WireSchema.Text.Hex
import WireSchema.Value.Basic
import WireSchema.Wire.Error

namespace WireSchema

namespace Value

/-! ## To JSON -/

mutual

/-- The tree of a value. Bytes are hexadecimal text. A map is an object when all its keys are
strings, and otherwise a list of pairs. -/
def toJson : Value → Json
  | null => .null
  | bool b => .bool b
  | int n => .int n.toInt
  | uint n => .int n.toNat
  | float x => .float x
  | string s => .str s
  | bytes bs => .str (Hex.encode bs)
  | array items => .arr (itemsToJson items)
  | map es =>
    match es.mapM fun e => e.1.text? with
    | some keys => .obj (keys.zip (valuesToJson es))
    | none => .arr (pairsToJson es)
  | struct fields => .obj (fieldsToJson fields)

/-- The trees of elements. -/
def itemsToJson : List Value → List Json
  | [] => []
  | x :: xs => x.toJson :: itemsToJson xs

/-- The trees of the values of entries. -/
def valuesToJson : List (Value × Value) → List Json
  | [] => []
  | (_, v) :: es => v.toJson :: valuesToJson es

/-- The trees of entries as pairs. -/
def pairsToJson : List (Value × Value) → List Json
  | [] => []
  | (k, v) :: es => .arr [k.toJson, v.toJson] :: pairsToJson es

/-- The trees of fields by name. -/
def fieldsToJson : List (String × Value) → List (String × Json)
  | [] => []
  | (name, v) :: fs => (name, v.toJson) :: fieldsToJson fs

end

/-! ## From JSON -/

/-- The name of the kind of tree. -/
def kindOf : Json → String
  | .null | .fault => "null"
  | .bool _ => "bool"
  | .int _ | .float _ => "number"
  | .str _ => "string"
  | .arr _ => "array"
  | .obj _ => "object"

/-- The error of a tree of another kind. -/
def unlike (path : Path) (expected : String) (tree : Json) : WireError :=
  .typeMismatch path expected (kindOf tree)

/-- The value of a scalar. -/
def scalarOfJson (scalar : Scalar) (path : Path) (tree : Json) : Except WireError Value :=
  match scalar with
  | .bool =>
    match tree with
    | .bool b => .ok (.bool b)
    | _ => .error (unlike path "bool" tree)
  | .f32 | .f64 =>
    match tree with
    | .int n => .ok (.float (.ofInt n))
    | .float x => .ok (.float x)
    | _ => .error (unlike path "number" tree)
  | .i8 | .i16 | .i32 | .i64 =>
    match tree with
    | .int n =>
      if n < (2 ^ (63 : Nat) : Nat) then .ok (.int (Int64.ofInt n))
      else .error (.outOfRange path scalar n)
    | _ => .error (unlike path "integer" tree)
  | .u8 | .u16 | .u32 | .u64 =>
    match tree with
    | .int n =>
      if 0 ≤ n then .ok (.uint (UInt64.ofNat n.toNat)) else .error (.outOfRange path scalar n)
    | _ => .error (unlike path "unsigned integer" tree)

/-- The byte of a small number. -/
def byteOfJson (path : Path) (tree : Json) : Except WireError UInt8 :=
  match tree with
  | .int n =>
    if 0 ≤ n ∧ n < 256 then .ok (UInt8.ofNat n.toNat) else .error (unlike path "byte" tree)
  | _ => .error (unlike path "byte" tree)

/-- Bytes as hexadecimal text, with or without a mark, or as an array of numbers. -/
def bytesOfJson (path : Path) (tree : Json) : Except WireError (List UInt8) :=
  match tree with
  | .str s =>
    match Hex.decodeMarked? s with
    | some bs => .ok bs
    | none => .error (unlike path "hex string" tree)
  | .arr items => items.zipIdx.mapM fun x => byteOfJson (path.index x.2) x.1
  | _ => .error (unlike path "hex string or byte array" tree)

/-- The elements of an array. -/
def itemsOfJson (path : Path) (tree : Json) : Except WireError (List Json) :=
  match tree with
  | .arr items => .ok items
  | _ => .error (unlike path "array" tree)

/-- The entries of an object. -/
def entriesOfJson (path : Path) (tree : Json) : Except WireError (List (String × Json)) :=
  match tree with
  | .obj entries => .ok entries
  | _ => .error (unlike path "object" tree)

/-- The tree of a key of an object: the text itself for strings and bytes, else what the text
spells. -/
def keyTree (path : Path) (key : String) : Layout → Except WireError Json
  | .string | .dynamicBytes | .fixedBytes _ => .ok (.str key)
  | _ =>
    match Json.read? key with
    | some tree => .ok tree
    | none => .error (.typeMismatch path "map key literal" "string")

/-- A way to deal with embedded structs: the name, where the value is, the tree. -/
abbrev StructOfJson := String → Path → Json → Except WireError Value

/-- The value of a layout. -/
def ofTree (onStruct : StructOfJson) : Layout → Path → Json → Except WireError Value
  | .fixed scalar, path, tree => scalarOfJson scalar path tree
  | .nullable scalar, path, tree =>
    match tree with
    | .null => .ok .null
    | _ => scalarOfJson scalar path tree
  | .string, path, tree =>
    match tree with
    | .str s => .ok (.string s)
    | _ => .error (unlike path "string" tree)
  | .fixedBytes _, path, tree | .dynamicBytes, path, tree => (bytesOfJson path tree).map .bytes
  | .fixedArray _ elem, path, tree | .dynamicArray elem, path, tree => do
    let items ← itemsOfJson path tree
    let xs ← items.zipIdx.mapM fun x => ofTree onStruct elem (path.index x.2) x.1
    return .array xs
  | .map key value, path, tree =>
    match tree with
    | .obj entries => do
      let es ← entries.mapM fun e => do
        let k ← ofTree onStruct key (path.key e.1) (← keyTree (path.key e.1) e.1 key)
        let v ← ofTree onStruct value (path.key e.1) e.2
        return (k, v)
      return .map es
    | .arr pairs => do
      let es ← pairs.zipIdx.mapM fun x =>
        match x.1 with
        | .arr [k, v] => do
          let k ← ofTree onStruct key (path.index x.2) k
          let v ← ofTree onStruct value (path.index x.2) v
          return (k, v)
        | pair => throw (unlike (path.index x.2) "[key, value] pair" pair)
      return .map es
    | _ => .error (unlike path "object or array of pairs" tree)
  | .embedded type, path, tree => onStruct type path tree

/-- The layout is one of scalars that may be absent. -/
def isNullable : Layout → Bool
  | .nullable _ => true
  | _ => false

/-- The value of a field. One that may be absent need not be there. -/
def fieldOfTree (onStruct : StructOfJson) (path : Path) (entries : List (String × Json))
    (f : FieldLayout) : Except WireError (String × Value) :=
  match entries.lookup f.name with
  | some tree => return (f.name, ← ofTree onStruct f.layout (path.field f.name) tree)
  | none =>
    if isNullable f.layout then return (f.name, .null) else throw (.missingField path f.name)

/-- The value of a struct. The fuel bounds how deep objects stand inside each other. -/
def structOfTree (d : DocumentLayout) : Nat → StructOfJson
  | 0, _, path, _ => .error (.depthExceeded path)
  | fuel + 1, type, path, tree =>
    match d.get? type with
    | none => .error (.unknownType type)
    | some s => do
      let entries ← entriesOfJson path tree
      match entries.find? fun e => !s.fields.any (·.name == e.1) with
      | some e => throw (.unknownField path e.1)
      | none =>
        let fields ← s.fields.mapM (fieldOfTree (structOfTree d fuel) path entries)
        return .struct fields

/-- The value of a layout in a document. No struct stands deeper in a tree than the tree is
heavy. -/
def ofJson (d : DocumentLayout) (layout : Layout) (path : Path) (tree : Json) :
    Except WireError Value :=
  ofTree (structOfTree d tree.weight) layout path tree

end Value

end WireSchema
