-- Lowering: the programs of each struct, from the shapes of its fields. A shape has all that
-- the programs need. A field can lack a shape, and a program that measures can break off at a map
-- whose two widths no word has together; the first of the two that is met ends the lowering.
import WireSchema.Program.Basic

namespace WireSchema

/-- Why a document has no programs. -/
inductive LoweringError where
  /-- A field whose type has no layout. -/
  | field (owner field : String) (cause : LayoutError)
  /-- A sum of two widths that no word has. Nothing is reported: whoever lowers breaks off. -/
  | overflow

namespace LoweringError

/-- The wording of a lowering error. -/
def message : LoweringError → String
  | field owner name cause =>
    "field '" ++ owner ++ "." ++ name ++ "' cannot be lowered: " ++ cause.message
  | overflow => "attempt to add with overflow"

/-- The messages of a lowering error and of its cause, from the outside. -/
def chain (e : LoweringError) : List String :=
  match e with
  | field _ _ cause => [e.message, cause.message]
  | overflow => [e.message]

end LoweringError

/-- Programs number their temporaries: the state is the next number. -/
abbrev Lowering := StateM Nat

/-- Lowering that adds up widths, and can break off. -/
abbrev Measuring := StateT Nat (Except LoweringError)

/-- The sum of two widths, or the given error where no word has it. -/
def addWidths {ε : Type} (overflow : ε) (a b : UInt64) : Except ε UInt64 :=
  match Width.checkedAdd a b with
  | some width => .ok width
  | none => .error overflow

/-- A new temporary: a stem and the next number. -/
def Lowering.fresh {m : Type → Type} [Monad m] (stem : String) : StateT Nat m String :=
  modifyGet fun n => (stem ++ toString n, n + 1)

/-- New temporaries for several stems. -/
def Lowering.freshNames (stems : List String) : List String :=
  ((stems.mapM (Lowering.fresh (m := Id))).run 0).1

open Lowering

namespace Shape

/-- The static width of the shape's layout. -/
def staticWidth (s : Shape) : Option UInt64 := s.layout.staticWidth

/-- The steps that add the size of the value at a place. `add` gives the width of an entry of a map,
from those of its key and its value. -/
def sizeOpsM {m : Type → Type} [Monad m] (add : UInt64 → UInt64 → m UInt64) :
    Shape → Place → StateT Nat m (List Op)
  | fixed scalar, _ => return [.addSize (.const (.ofNat scalar.width))]
  | nullable scalar, place =>
    return [.addSize (.const (.ofNat flagWidth)),
      .addSize (.optional place (.ofNat scalar.width))]
  | string, place => return [.addSize (.const (.ofNat countWidth)), .addSize (.utf8Len place)]
  | fixedBytes len, _ => return [.addSize (.const len.toUInt64)]
  | dynamicBytes, place =>
    return [.addSize (.const (.ofNat countWidth)), .addSize (.byteLen place)]
  | fixedArray len _ elem, place =>
    match elem.staticWidth.bind (Width.checkedMul · len.toUInt64) with
    | some bytes => return [.addSize (.const bytes)]
    | none => do
      let item ← fresh "item"
      let body ← elem.sizeOpsM add (.temp item)
      return [.forEach place item body]
  | dynamicArray _ elem, place =>
    match elem.staticWidth with
    | some width =>
      return [.addSize (.const (.ofNat countWidth)), .addSize (.countTimes place width)]
    | none => do
      let item ← fresh "item"
      let body ← elem.sizeOpsM add (.temp item)
      return [.addSize (.const (.ofNat countWidth)), .forEach place item body]
  | map _ _ key value, place =>
    match key.staticWidth, value.staticWidth with
    | some k, some v => do
      let width ← add k v
      return [.addSize (.const (.ofNat countWidth)), .addSize (.countTimes place width)]
    | _, _ => do
      let k ← fresh "key"
      let v ← fresh "val"
      let keyOps ← key.sizeOpsM add (.temp k)
      let valueOps ← value.sizeOpsM add (.temp v)
      return [.addSize (.const (.ofNat countWidth)), .forEachEntry place k v (keyOps ++ valueOps)]
  | embedded _ _, place => return [.addSize (.nested place)]

/-- The steps that add the size of the value at a place. Lowering breaks off at a map whose two
widths no word has together. -/
def sizeOps : Shape → Place → Measuring (List Op) := sizeOpsM (addWidths .overflow)

/-- The steps that write the value at a place. -/
def marshalOps : Shape → Place → Lowering (List Op)
  | fixed scalar, place => return [.writeScalar scalar place]
  | nullable scalar, place => return [.writeNullable scalar place]
  | string, place => return [.writeString place]
  | fixedBytes len, place => return [.writeBytes place (some len)]
  | dynamicBytes, place => return [.writeBytes place none]
  | fixedArray len _ elem, place => do
    let item ← fresh "item"
    let body ← elem.marshalOps (.temp item)
    return [.checkLen place len, .forEach place item body]
  | dynamicArray _ elem, place => do
    let item ← fresh "item"
    let body ← elem.marshalOps (.temp item)
    return [.writeCount place, .forEach place item body]
  | map _ _ key value, place => do
    let k ← fresh "key"
    let v ← fresh "val"
    let keyOps ← key.marshalOps (.temp k)
    let valueOps ← value.marshalOps (.temp v)
    return [.writeCount place, .forEachEntry place k v (keyOps ++ valueOps)]
  | embedded _ _, place => return [.marshalNested place]

/-- The steps that read a value into a place. `widths` are the fewest bytes of the structs. -/
def unmarshalOps (widths : MinWidths) : Shape → Place → Lowering (List Op)
  | fixed scalar, place => return [.readScalar scalar place]
  | nullable scalar, place => return [.readNullable scalar place]
  | string, place => return [.readString place]
  | fixedBytes len, place => return [.readBytes place (some len)]
  | dynamicBytes, place => return [.readBytes place none]
  | fixedArray len type elem, place => do
    let list ← fresh "list"
    let index ← fresh "i"
    let item ← fresh "item"
    let ops ← elem.unmarshalOps widths (.temp item)
    let body := .declareLocal item type :: ops ++ [.append list item (some index)]
    return [.newList list type (.fixed len), .loop (.fixed len) index body, .assign place list]
  | dynamicArray type elem, place => do
    let count ← fresh "count"
    let list ← fresh "list"
    let index ← fresh "i"
    let item ← fresh "item"
    let ops ← elem.unmarshalOps widths (.temp item)
    let body := .declareLocal item type :: ops ++ [.append list item none]
    return [.readCount count (elem.layout.minWidth widths.get), .newList list type (.var count),
      .loop (.var count) index body, .assign place list]
  | map keyType valueType key value, place => do
    let count ← fresh "count"
    let m ← fresh "map"
    let index ← fresh "i"
    let k ← fresh "key"
    let v ← fresh "val"
    let keyOps ← key.unmarshalOps widths (.temp k)
    let valueOps ← value.unmarshalOps widths (.temp v)
    let body := .declareLocal k keyType :: keyOps ++ .declareLocal v valueType :: valueOps ++
      [.insert m k v]
    let width := Width.saturatingAdd (key.layout.minWidth widths.get)
      (value.layout.minWidth widths.get)
    return [.readCount count width, .newMap m keyType valueType, .loop (.var count) index body,
      .assign place m]
  | embedded type _, place => return [.unmarshalNested place type]

end Shape

/-- A field and the shape of its type. -/
structure FieldShape where
  name : String
  shape : Shape

/-- The shape of a field of the struct `owner`. -/
def Field.shape (owner : String) (f : Field) : Except LoweringError FieldShape :=
  match f.type.shape with
  | .ok shape => .ok ⟨f.name, shape⟩
  | .error e => .error (.field owner f.name e)

/-- The shape of a field of the struct `owner`, and then the steps that measure the field. -/
def Field.measured (owner : String) (f : Field) : Measuring (FieldShape × List Op) := do
  let g ← f.shape owner
  let ops ← g.shape.sizeOps (.field g.name)
  return (g, ops)

/-- The program of all fields, from the program of each. The numbers of temporaries go on
from field to field. -/
def programOf (lower : Shape → Place → Lowering (List Op)) (fields : List FieldShape) : List Op :=
  ((fields.mapM fun f => lower f.shape (.field f.name)).run 0).1.flatten

/-- The programs of a struct. The first field that has no shape or cannot be measured ends the
lowering. -/
def StructDef.program (widths : MinWidths) (s : StructDef) :
    Except LoweringError StructProgram := do
  let (measured, _) ← (s.fields.mapM (Field.measured s.name)).run 0
  let fields := measured.map Prod.fst
  return {
    typeName := s.name
    fields := fields.map fun f => ⟨f.name, f.shape.layout⟩
    size := measured.flatMap Prod.snd
    marshal := programOf Shape.marshalOps fields
    unmarshal := programOf (Shape.unmarshalOps widths) fields }

/-- The fewest bytes of the structs of a document; none when it has no layouts. -/
def Document.minWidths (doc : Document) : MinWidths :=
  match doc.layout with
  | .ok d => d.minWidths
  | .error _ => []

/-- The programs of a document. -/
def Document.program (doc : Document) : Except LoweringError DocumentProgram := do
  return ⟨programVersion, doc.package,
    ← doc.messageStructs.mapM (StructDef.program doc.minWidths)⟩

end WireSchema
