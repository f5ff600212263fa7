-- Programs as records: the JSON tree of each part, and decoding it.
import WireSchema.Layout.Codec
import WireSchema.Program.Basic
import WireSchema.Schema.Codec

namespace WireSchema

open Record

/-! ## Encoding -/

/-- The JSON tree of a place. -/
def Place.toJson : Place → Json
  | field name => .obj [("place", .str "field"), ("name", .str name)]
  | temp name => .obj [("place", .str "local"), ("name", .str name)]

/-- The JSON tree of a count. -/
def Count.toJson : Count → Json
  | fixed len => .obj [("count", .str "fixed"), ("len", .int len.toNat)]
  | var name => .obj [("count", .str "var"), ("name", .str name)]

/-- The JSON tree of an addend. -/
def SizeTerm.toJson : SizeTerm → Json
  | const bytes => .obj [("term", .str "const"), ("bytes", .int bytes.toNat)]
  | utf8Len of => .obj [("term", .str "utf8-len"), ("of", of.toJson)]
  | byteLen of => .obj [("term", .str "byte-len"), ("of", of.toJson)]
  | countTimes of width =>
    .obj [("term", .str "count-times"), ("of", of.toJson), ("width", .int width.toNat)]
  | optional value width =>
    .obj [("term", .str "optional"), ("value", value.toJson), ("width", .int width.toNat)]
  | nested of => .obj [("term", .str "nested"), ("of", of.toJson)]

/-- The entry of a length that may be left out. -/
def lenEntry (len : Option UInt32) : List (String × Json) :=
  optionalEntry "len" (len.map fun n => .int n.toNat)

namespace Op

/-- A record with the tag of a step. -/
def tagged (op : String) (entries : List (String × Json)) : Json :=
  .obj (("op", .str op) :: entries)

mutual

/-- The JSON tree of a step. -/
def toJson : Op → Json
  | addSize term => tagged "add-size" [("term", term.toJson)]
  | writeScalar scalar value =>
    tagged "write-scalar" [("scalar", .str scalar.name), ("value", value.toJson)]
  | writeNullable scalar value =>
    tagged "write-nullable" [("scalar", .str scalar.name), ("value", value.toJson)]
  | writeString value => tagged "write-string" [("value", value.toJson)]
  | writeBytes value len => tagged "write-bytes" (("value", value.toJson) :: lenEntry len)
  | writeCount of => tagged "write-count" [("of", of.toJson)]
  | checkLen of len => tagged "check-len" [("of", of.toJson), ("len", .int len.toNat)]
  | marshalNested value => tagged "marshal-nested" [("value", value.toJson)]
  | readScalar scalar target =>
    tagged "read-scalar" [("scalar", .str scalar.name), ("target", target.toJson)]
  | readNullable scalar target =>
    tagged "read-nullable" [("scalar", .str scalar.name), ("target", target.toJson)]
  | readString target => tagged "read-string" [("target", target.toJson)]
  | readBytes target len => tagged "read-bytes" (("target", target.toJson) :: lenEntry len)
  | readCount var minWidth =>
    tagged "read-count" [("var", .str var), ("min_width", .int minWidth.toNat)]
  | unmarshalNested target type =>
    tagged "unmarshal-nested" [("target", target.toJson), ("ty", type.toJson)]
  | declareLocal var type => tagged "declare-local" [("var", .str var), ("ty", type.toJson)]
  | newList var elem len =>
    tagged "new-list" [("var", .str var), ("elem", elem.toJson), ("len", len.toJson)]
  | newMap var key value =>
    tagged "new-map" [("var", .str var), ("key", key.toJson), ("value", value.toJson)]
  | append list item index =>
    tagged "append"
      ([("list", .str list), ("item", .str item)] ++ optionalEntry "index" (index.map .str))
  | insert map key value =>
    tagged "insert" [("map", .str map), ("key", .str key), ("value", .str value)]
  | assign target var => tagged "assign" [("target", target.toJson), ("var", .str var)]
  | forEach source item body =>
    tagged "for-each"
      [("source", source.toJson), ("item", .str item), ("body", .arr (listToJson body))]
  | forEachEntry source key value body =>
    tagged "for-each-entry"
      [("source", source.toJson), ("key", .str key), ("value", .str value),
        ("body", .arr (listToJson body))]
  | loop count index body =>
    tagged "repeat"
      [("count", count.toJson), ("index", .str index), ("body", .arr (listToJson body))]

/-- The JSON trees of the steps of a program. -/
def listToJson : List Op → List Json
  | [] => []
  | op :: ops => toJson op :: listToJson ops

end

end Op

/-- The JSON tree of the programs of a struct. -/
def StructProgram.toJson (p : StructProgram) : Json :=
  .obj [("type_name", .str p.typeName), ("fields", .arr (p.fields.map FieldLayout.toJson)),
    ("size", .arr (Op.listToJson p.size)), ("marshal", .arr (Op.listToJson p.marshal)),
    ("unmarshal", .arr (Op.listToJson p.unmarshal))]

/-- The JSON tree of the programs of a document. -/
def DocumentProgram.toJson (p : DocumentProgram) : Json :=
  .obj [("version", .int p.version.toNat), ("package", .str p.package),
    ("types", .arr (p.types.map StructProgram.toJson))]

/-! ## Decoding -/

/-- Decodes a part of a tree that may be left out. -/
def Json.optional? {α : Type} (decode : Json → Option α) (tree : Json) : Option (Option α) :=
  if tree.isNull then some none else (decode tree).map some

/-- The elements of an array. -/
def Json.elements? : Json → Option (List Json)
  | .arr items => some items
  | _ => none

/-- Decodes a place. -/
def Place.decode? (tree : Json) : Option Place := do
  let (kind, body) ← Json.tagged? "place" ["field", "local"] true tree
  let es ← body.entries? ["name"]
  let name ← field? es "name" Json.text?
  return if kind == "field" then .field name else .temp name

/-- Decodes a count. -/
def Count.decode? (tree : Json) : Option Count := do
  let (kind, body) ← Json.tagged? "count" ["fixed", "var"] true tree
  if kind == "fixed" then
    let es ← body.entries? ["len"]
    return .fixed (← field? es "len" Json.word32?)
  else
    let es ← body.entries? ["name"]
    return .var (← field? es "name" Json.text?)

/-- The kinds of addends, in the order of the format. -/
def SizeTerm.kinds : List String :=
  ["const", "utf8-len", "byte-len", "count-times", "optional", "nested"]

/-- Decodes an addend. -/
def SizeTerm.decode? (tree : Json) : Option SizeTerm := do
  let (kind, body) ← Json.tagged? "term" kinds true tree
  match kind with
  | "const" => do
    let es ← body.entries? ["bytes"]
    return .const (← field? es "bytes" Json.word64?)
  | "utf8-len" => do
    let es ← body.entries? ["of"]
    return .utf8Len (← field? es "of" Place.decode?)
  | "byte-len" => do
    let es ← body.entries? ["of"]
    return .byteLen (← field? es "of" Place.decode?)
  | "count-times" => do
    let es ← body.entries? ["of", "width"]
    return .countTimes (← field? es "of" Place.decode?) (← field? es "width" Json.word64?)
  | "optional" => do
    let es ← body.entries? ["value", "width"]
    return .optional (← field? es "value" Place.decode?) (← field? es "width" Json.word64?)
  | "nested" => do
    let es ← body.entries? ["of"]
    return .nested (← field? es "of" Place.decode?)
  | _ => none

namespace Op

/-- The kinds of steps, in the order of the format. -/
def kinds : List String :=
  ["add-size", "write-scalar", "write-nullable", "write-string", "write-bytes", "write-count",
    "check-len", "marshal-nested", "read-scalar", "read-nullable", "read-string", "read-bytes",
    "read-count", "unmarshal-nested", "declare-local", "new-list", "new-map", "append", "insert",
    "assign", "for-each", "for-each-entry", "repeat"]

/-- Decodes a scalar. -/
def scalar? : Json → Option Scalar := Json.heldChoice? Scalar.ofName?

/-- Decodes a descriptor. -/
def type? : Json → Option Descriptor := Json.held? Descriptor.ofHeldNode?

/-- Decodes a step; `held` when its tag was read before. The fuel bounds how deep steps stand
inside each other. -/
def decode? : Nat → Bool → Json → Option Op
  | 0, _, _ => none
  | fuel + 1, held, tree => do
    let (kind, body) ← Json.tagged? "op" kinds held tree
    let place (es : List (String × Json)) (name : String) := field? es name Place.decode?
    let text (es : List (String × Json)) (name : String) := field? es name Json.text?
    let len (es : List (String × Json)) := fieldD? es "len" (Json.optional? Json.word32?) none
    let ops (es : List (String × Json)) :=
      field? es "body" fun t => t.elements?.bind (·.mapM (decode? fuel true))
    match kind with
    | "add-size" => do
      let es ← body.entries? ["term"]
      return .addSize (← field? es "term" SizeTerm.decode?)
    | "write-scalar" => do
      let es ← body.entries? ["scalar", "value"]
      return .writeScalar (← field? es "scalar" scalar?) (← place es "value")
    | "write-nullable" => do
      let es ← body.entries? ["scalar", "value"]
      return .writeNullable (← field? es "scalar" scalar?) (← place es "value")
    | "write-string" => do
      let es ← body.entries? ["value"]
      return .writeString (← place es "value")
    | "write-bytes" => do
      let es ← body.entries? ["value", "len"]
      return .writeBytes (← place es "value") (← len es)
    | "write-count" => do
      let es ← body.entries? ["of"]
      return .writeCount (← place es "of")
    | "check-len" => do
      let es ← body.entries? ["of", "len"]
      return .checkLen (← place es "of") (← field? es "len" Json.word32?)
    | "marshal-nested" => do
      let es ← body.entries? ["value"]
      return .marshalNested (← place es "value")
    | "read-scalar" => do
      let es ← body.entries? ["scalar", "target"]
      return .readScalar (← field? es "scalar" scalar?) (← place es "target")
    | "read-nullable" => do
      let es ← body.entries? ["scalar", "target"]
      return .readNullable (← field? es "scalar" scalar?) (← place es "target")
    | "read-string" => do
      let es ← body.entries? ["target"]
      return .readString (← place es "target")
    | "read-bytes" => do
      let es ← body.entries? ["target", "len"]
      return .readBytes (← place es "target") (← len es)
    | "read-count" => do
      let es ← body.entries? ["var", "min_width"]
      return .readCount (← text es "var") (← fieldD? es "min_width" Json.word64? 0)
    | "unmarshal-nested" => do
      let es ← body.entries? ["target", "ty"]
      return .unmarshalNested (← place es "target") (← field? es "ty" type?)
    | "declare-local" => do
      let es ← body.entries? ["var", "ty"]
      return .declareLocal (← text es "var") (← field? es "ty" type?)
    | "new-list" => do
      let es ← body.entries? ["var", "elem", "len"]
      return .newList (← text es "var") (← field? es "elem" type?)
        (← field? es "len" Count.decode?)
    | "new-map" => do
      let es ← body.entries? ["var", "key", "value"]
      return .newMap (← text es "var") (← field? es "key" type?) (← field? es "value" type?)
    | "append" => do
      let es ← body.entries? ["list", "item", "index"]
      return .append (← text es "list") (← text es "item")
        (← fieldD? es "index" (Json.optional? Json.text?) none)
    | "insert" => do
      let es ← body.entries? ["map", "key", "value"]
      return .insert (← text es "map") (← text es "key") (← text es "value")
    | "assign" => do
      let es ← body.entries? ["target", "var"]
      return .assign (← place es "target") (← text es "var")
    | "for-each" => do
      let es ← body.entries? ["source", "item", "body"]
      return .forEach (← place es "source") (← text es "item") (← ops es)
    | "for-each-entry" => do
      let es ← body.entries? ["source", "key", "value", "body"]
      return .forEachEntry (← place es "source") (← text es "key") (← text es "value") (← ops es)
    | "repeat" => do
      let es ← body.entries? ["count", "index", "body"]
      return .loop (← field? es "count" Count.decode?) (← text es "index") (← ops es)
    | _ => none

/-- The step of a JSON node. -/
def ofNode? (node : Json.Node) : Option Op :=
  node.whole?.bind fun tree => decode? (tree.depth + 1) false tree

end Op

/-- The programs of a struct. -/
def StructProgram.ofNode? (node : Json.Node) : Option StructProgram := do
  let es ← node.entries? ["type_name", "fields", "size", "marshal", "unmarshal"]
  let ops := Json.format.list? Op.ofNode?
  return ⟨← field? es "type_name" Json.format.text?,
    ← field? es "fields" (Json.format.list? FieldLayout.ofNode?),
    ← field? es "size" ops, ← field? es "marshal" ops, ← field? es "unmarshal" ops⟩

/-- The programs of a struct in a JSON text. -/
def StructProgram.ofText? (text : String) : Option StructProgram :=
  Json.decodeText? StructProgram.ofNode? text

/-- The programs of a document. -/
def DocumentProgram.ofNode? (node : Json.Node) : Option DocumentProgram := do
  let es ← node.entries? ["version", "package", "types"]
  return ⟨← field? es "version" Json.format.word32?, ← field? es "package" Json.format.text?,
    ← field? es "types" (Json.format.list? StructProgram.ofNode?)⟩

end WireSchema
