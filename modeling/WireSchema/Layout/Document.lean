-- The layouts of a document: one for each struct that has a codec, in order of declaration,
-- and the fewest bytes that each struct takes.
import WireSchema.Layout.Basic
import WireSchema.Schema.Document

namespace WireSchema

/-- The order of the bytes of a scalar. -/
inductive ByteOrder where
  | little | big
  deriving DecidableEq

namespace ByteOrder

/-- The spelling in a layout. -/
def name : ByteOrder → String
  | little => "little"
  | big => "big"

/-- The order with the given spelling. -/
def ofName? (s : String) : Option ByteOrder := [little, big].find? (·.name == s)

end ByteOrder

/-- A field and its layout. -/
structure FieldLayout where
  name : String
  layout : Layout
  deriving DecidableEq

/-- A struct and the layouts of its fields, in wire order. -/
structure StructLayout where
  name : String
  fields : List FieldLayout
  deriving DecidableEq

/-- The layouts of a document. -/
structure DocumentLayout where
  version : UInt32
  package : String
  byteOrder : ByteOrder
  structs : List StructLayout
  deriving DecidableEq

/-- The version of the layouts that documents get. -/
def layoutVersion : UInt32 := 1

/-- The sum of the fields' widths, when all are static and the sum fits a word. -/
def StructLayout.staticWidth (s : StructLayout) : Option UInt64 :=
  s.fields.foldlM (fun sum f => f.layout.staticWidth.bind (Width.checkedAdd sum)) 0

/-! ## Building -/

/-- The layout of a field of the struct `owner`. -/
def Field.layout (owner : String) (f : Field) : Except LayoutError FieldLayout :=
  match f.type.layout with
  | .ok layout => .ok ⟨f.name, layout⟩
  | .error e => .error (.field owner f.name e)

/-- The layout of a struct. -/
def StructDef.layout (s : StructDef) : Except LayoutError StructLayout := do
  return ⟨s.name, ← s.fields.mapM (Field.layout s.name)⟩

/-- The layouts of a document. -/
def Document.layout (doc : Document) : Except LayoutError DocumentLayout := do
  return ⟨layoutVersion, doc.package, .little, ← doc.messageStructs.mapM StructDef.layout⟩

/-! ## Fewest bytes -/

/-- The fewest bytes of the structs found so far. -/
abbrev MinWidths := List (String × UInt64)

/-- The fewest bytes of a struct, zero when it is not listed. -/
def MinWidths.get (ws : MinWidths) (name : String) : UInt64 := (ws.lookup name).getD 0

namespace DocumentLayout

/-- The first struct of the name. -/
def get? (d : DocumentLayout) (name : String) : Option StructLayout :=
  d.structs.find? (·.name == name)

/-- The fewest bytes of a struct, which is kept once it is found. A struct that is not there
or that is being measured counts nothing. The fuel bounds how many structs are being
measured at once. -/
def measure (d : DocumentLayout) : Nat → List String → String → StateM MinWidths UInt64
  | 0, _, _ => pure 0
  | fuel + 1, visiting, name => do
    match (← get).lookup name with
    | some width => return width
    | none =>
      if visiting.contains name then return 0
      match d.get? name with
      | none => return 0
      | some s =>
        let total ← s.fields.foldlM (fun total f => do
          let width ← f.layout.minWidthM (d.measure fuel (name :: visiting))
          return Width.saturatingAdd total width) 0
        modify fun found => (name, total) :: found
        return total

/-- The fewest bytes of every struct, at most the largest word. Structs are measured in order
of declaration, so none of a cycle counts for more than its own part. -/
def minWidths (d : DocumentLayout) : MinWidths :=
  ((d.structs.forM fun s => discard (d.measure (d.structs.length + 1) [] s.name)).run []).2

/-- The fewest bytes that a value of a layout takes in the document. -/
def minWidth (d : DocumentLayout) (l : Layout) : UInt64 := l.minWidth d.minWidths.get

end DocumentLayout

end WireSchema
