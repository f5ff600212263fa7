-- Names and types of a schema as they are spelled in Rust code.
import WireSchema.Layout.Basic
import WireSchema.Text.Naming

namespace WireSchema.Native

open Text

/-- Words that stand for a name only behind a mark. -/
def keywords : List String :=
  ["as", "break", "const", "continue", "else", "enum", "extern", "false", "fn", "for", "if",
    "impl", "in", "let", "loop", "match", "mod", "move", "mut", "pub", "ref", "return",
    "static", "struct", "trait", "true", "type", "unsafe", "use", "where", "while", "async",
    "await", "dyn", "abstract", "become", "box", "do", "final", "macro", "override", "priv",
    "typeof", "unsized", "virtual", "yield", "try", "gen"]

/-- Words that cannot stand for a name at all. -/
def pathWords : List String := ["self", "Self", "crate", "super"]

/-- The name, changed when it is a word of the language. -/
def escaped (name : String) : String :=
  if pathWords.contains name then name ++ "_"
  else if keywords.contains name then "r#" ++ name
  else name

/-- The name of a field. -/
def fieldName (name : String) : String := escaped (snakeCase name)

/-- The name of the module of a package. -/
def moduleName (package : String) : String := escaped (snakeCase package)

/-- The ending of the names of methods for a struct. -/
def methodEnding (structName : String) : String := snakeCase structName

/-- The type of a list. -/
def listType (elem : String) : String := "Vec<" ++ elem ++ ">"

/-- The type of a map. -/
def mapType (key value : String) : String := "indexmap::IndexMap<" ++ key ++ ", " ++ value ++ ">"

/-- The type of what a descriptor lacks. -/
def unitType : String := "()"

/-- The type of a descriptor. Only structs go by their names. -/
def typeName : Descriptor → String
  | ⟨kind, elem, key, len, name⟩ =>
    let elemType := match elem with
      | some e => typeName e
      | none => unitType
    let keyType := match key with
      | some k => typeName k
      | none => unitType
    match kind with
    | .string => "String"
    | .bytes => "Vec<u8>"
    | .array => listType elemType
    | .map => mapType keyType elemType
    | .pointer =>
      if elem.any (·.kind.isScalar) then "Option<" ++ elemType ++ ">" else elemType
    | .struct => (Descriptor.name? ⟨kind, elem, key, len, name⟩).getD unitType
    | scalar =>
      match Scalar.ofKind? scalar with
      | some s => s.name
      | none => unitType

/-- Values of the type can be keys of a map: they have an exact equality. -/
def isHashable : Descriptor → Bool
  | ⟨.string, _, _, _, _⟩ | ⟨.bytes, _, _, _, _⟩ => true
  | ⟨.array, some elem, _, _, _⟩ | ⟨.pointer, some elem, _, _, _⟩ => isHashable elem
  | ⟨.array, none, _, _, _⟩ | ⟨.pointer, none, _, _, _⟩ => false
  | ⟨.map, _, _, _, _⟩ | ⟨.struct, _, _, _, _⟩ => false
  | ⟨.float32, _, _, _, _⟩ | ⟨.float64, _, _, _, _⟩ => false
  | _ => true

end WireSchema.Native
