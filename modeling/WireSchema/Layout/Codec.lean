-- Layouts as records: the JSON tree of each part, and decoding it.
import WireSchema.Json.Format
import WireSchema.Layout.Document

namespace WireSchema

open Record

/-! ## Encoding -/

/-- The JSON tree of a layout, tagged with its strategy. -/
def Layout.toJson : Layout → Json
  | fixed scalar => .obj [("strategy", .str "fixed"), ("scalar", .str scalar.name)]
  | nullable scalar => .obj [("strategy", .str "nullable"), ("scalar", .str scalar.name)]
  | string => .obj [("strategy", .str "string")]
  | fixedBytes len => .obj [("strategy", .str "fixed-bytes"), ("len", .int len.toNat)]
  | dynamicBytes => .obj [("strategy", .str "dynamic-bytes")]
  | fixedArray len elem =>
    .obj [("strategy", .str "fixed-array"), ("len", .int len.toNat), ("elem", elem.toJson)]
  | dynamicArray elem => .obj [("strategy", .str "dynamic-array"), ("elem", elem.toJson)]
  | map key value =>
    .obj [("strategy", .str "map"), ("key", key.toJson), ("value", value.toJson)]
  | embedded type => .obj [("strategy", .str "embedded"), ("type_name", .str type)]

/-- The JSON tree of a field's layout. -/
def FieldLayout.toJson (f : FieldLayout) : Json :=
  .obj [("name", .str f.name), ("layout", f.layout.toJson)]

/-- The JSON tree of a struct's layout. -/
def StructLayout.toJson (s : StructLayout) : Json :=
  .obj [("name", .str s.name), ("fields", .arr (s.fields.map FieldLayout.toJson))]

/-- The JSON tree of a document's layouts. -/
def DocumentLayout.toJson (d : DocumentLayout) : Json :=
  .obj [("version", .int d.version.toNat), ("package", .str d.package),
    ("byte_order", .str d.byteOrder.name), ("structs", .arr (d.structs.map StructLayout.toJson))]

/-! ## Decoding -/

/-- Decodes a choice in a tree that was read before. -/
def Json.heldChoice? {α : Type} (ofName? : String → Option α) : Json → Option α :=
  decodeTree? fun n => n.heldChoice?.bind ofName?

/-- Decodes a 32-bit number in a tree. -/
def Json.word32? : Json → Option UInt32 := decodeTree? format.word32?

/-- Decodes a 64-bit number in a tree. -/
def Json.word64? : Json → Option UInt64 := decodeTree? format.word64?

/-- The strategies of layouts, in the order of the format. -/
def Layout.strategies : List String :=
  ["fixed", "nullable", "string", "fixed-bytes", "dynamic-bytes", "fixed-array",
    "dynamic-array", "map", "embedded"]

/-- Decodes a layout; `held` when its tag was read before. The fuel bounds how deep layouts
stand inside each other. -/
def Layout.decode? : Nat → Bool → Json → Option Layout
  | 0, _, _ => none
  | fuel + 1, held, tree => do
    let (strategy, body) ← Json.tagged? "strategy" strategies held tree
    match strategy with
    | "fixed" => do
      let es ← body.entries? ["scalar"]
      return .fixed (← field? es "scalar" (Json.heldChoice? Scalar.ofName?))
    | "nullable" => do
      let es ← body.entries? ["scalar"]
      return .nullable (← field? es "scalar" (Json.heldChoice? Scalar.ofName?))
    | "string" => if body.isBare then some .string else none
    | "fixed-bytes" => do
      let es ← body.entries? ["len"]
      return .fixedBytes (← field? es "len" Json.word32?)
    | "dynamic-bytes" => if body.isBare then some .dynamicBytes else none
    | "fixed-array" => do
      let es ← body.entries? ["len", "elem"]
      return .fixedArray (← field? es "len" Json.word32?) (← field? es "elem" (decode? fuel true))
    | "dynamic-array" => do
      let es ← body.entries? ["elem"]
      return .dynamicArray (← field? es "elem" (decode? fuel true))
    | "map" => do
      let es ← body.entries? ["key", "value"]
      return .map (← field? es "key" (decode? fuel true)) (← field? es "value" (decode? fuel true))
    | "embedded" => do
      let es ← body.entries? ["type_name"]
      return .embedded (← field? es "type_name" Json.text?)
    | _ => none

/-- The layout of a JSON node. -/
def Layout.ofNode? (node : Json.Node) : Option Layout :=
  node.whole?.bind fun tree => Layout.decode? (tree.depth + 1) false tree

/-- The layout of a field. -/
def FieldLayout.ofNode? (node : Json.Node) : Option FieldLayout := do
  let es ← node.entries? ["name", "layout"]
  return ⟨← field? es "name" Json.format.text?, ← field? es "layout" Layout.ofNode?⟩

/-- The layout of a struct. -/
def StructLayout.ofNode? (node : Json.Node) : Option StructLayout := do
  let es ← node.entries? ["name", "fields"]
  return ⟨← field? es "name" Json.format.text?,
    ← field? es "fields" (Json.format.list? FieldLayout.ofNode?)⟩

/-- The layouts of a document. -/
def DocumentLayout.ofNode? (node : Json.Node) : Option DocumentLayout := do
  let es ← node.entries? ["version", "package", "byte_order", "structs"]
  return ⟨← field? es "version" Json.format.word32?, ← field? es "package" Json.format.text?,
    ← field? es "byte_order" fun n => n.choice?.bind ByteOrder.ofName?,
    ← field? es "structs" (Json.format.list? StructLayout.ofNode?)⟩

/-- The layouts of a document in a JSON text. -/
def DocumentLayout.ofText? (text : String) : Option DocumentLayout :=
  Json.decodeText? DocumentLayout.ofNode? text

end WireSchema
