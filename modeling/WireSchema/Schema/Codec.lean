-- Documents as records: decoding from any format, and the JSON tree of each part.
import WireSchema.Json.Format
import WireSchema.Schema.Document

namespace WireSchema

open Record

/-! ## Decoding -/

section Decode

variable {m : Type → Type} [Monad m] [MonadLiftT Option m] {ν : Type} (f : Format m ν)

/-- Decodes a descriptor. The fuel bounds how deep descriptors stand inside each other. -/
def Descriptor.decode? : Nat → ν → m Descriptor
  | 0, _ => given? none
  | fuel + 1, node => do
    let es ← f.entries? ["kind", "elem", "key", "len", "name"] node
    let kind ← field? es "kind" (f.choose? Kind.ofName?)
    let elem ← fieldD? es "elem" (f.option? (Descriptor.decode? fuel)) none
    let key ← fieldD? es "key" (f.option? (Descriptor.decode? fuel)) none
    let len ← fieldD? es "len" f.word32? 0
    let name ← fieldD? es "name" (f.option? f.text?) none
    return ⟨kind, elem, key, len, name⟩

/-- Decodes a field. -/
def Field.decode? (fuel : Nat) (node : ν) : m Field := do
  let es ← f.entries? ["name", "type"] node
  let name ← field? es "name" f.text?
  let type ← field? es "type" (Descriptor.decode? f fuel)
  return ⟨name, type⟩

/-- Decodes a struct. -/
def StructDef.decode? (fuel : Nat) (node : ν) : m StructDef := do
  let es ← f.entries? ["name", "role", "fields"] node
  let name ← field? es "name" f.text?
  let role ← fieldD? es "role" (f.option? (f.choose? Role.ofName?)) none
  let fields ← fieldD? es "fields" (f.list? (Field.decode? f fuel)) []
  return ⟨name, role, fields⟩

/-- Decodes a document. -/
def Document.decode? (fuel : Nat) (node : ν) : m Document := do
  let es ← f.entries? ["package", "structs"] node
  let package ← field? es "package" f.text?
  let structs ← fieldD? es "structs" (f.list? (StructDef.decode? f fuel)) []
  return ⟨package, structs⟩

end Decode

/-- The descriptor of a JSON node. Each descriptor takes a level of its room. -/
def Descriptor.ofNode? (node : Json.Node) : Option Descriptor :=
  Descriptor.decode? Json.format node.room node

/-- The descriptor of a JSON node that was read before. -/
def Descriptor.ofHeldNode? (node : Json.Node) : Option Descriptor :=
  Descriptor.decode? Json.heldFormat node.room node

/-- The document of a JSON node. -/
def Document.ofNode? (node : Json.Node) : Option Document :=
  Document.decode? Json.format node.room node

/-! ## Encoding -/

/-- The entry of a part that may be left out. -/
def optionalEntry (name : String) : Option Json → List (String × Json)
  | some j => [(name, j)]
  | none => []

/-- The JSON tree of a descriptor. -/
def Descriptor.toJson : Descriptor → Json
  | ⟨kind, elem, key, len, name⟩ =>
    let elem := match elem with
      | some e => some e.toJson
      | none => none
    let key := match key with
      | some k => some k.toJson
      | none => none
    .obj <| [("kind", .str kind.name)] ++ optionalEntry "elem" elem ++ optionalEntry "key" key ++
      optionalEntry "len" (if len == 0 then none else some (.int len.toNat)) ++
      optionalEntry "name" (name.map .str)

/-- The JSON tree of a field. -/
def Field.toJson (f : Field) : Json := .obj [("name", .str f.name), ("type", f.type.toJson)]

/-- The JSON tree of a struct. -/
def StructDef.toJson (s : StructDef) : Json :=
  .obj <| [("name", .str s.name)] ++ optionalEntry "role" (s.stated.map (.str ·.name)) ++
    [("fields", .arr (s.fields.map Field.toJson))]

/-- The JSON tree of a document. -/
def Document.toJson (doc : Document) : Json :=
  .obj [("package", .str doc.package), ("structs", .arr (doc.structs.map StructDef.toJson))]

end WireSchema
