-- Issues of a document: findings about its protocol that do not stop anything.
import WireSchema.Schema.Document

namespace WireSchema

/-- A finding. -/
inductive Issue where
  | requestWithoutResponse (structName : String)
  | responseWithoutRequest (structName : String)
  | duplicateEndpoint (logicalName : String) (role : Role)
  | packageMarker (structName : String)
  | unknownStruct (location typeName : String)

namespace Issue

/-- The name of the kind of finding. -/
def kind : Issue → String
  | requestWithoutResponse _ => "RequestWithoutResponse"
  | responseWithoutRequest _ => "ResponseWithoutRequest"
  | duplicateEndpoint _ _ => "DuplicateEndpoint"
  | packageMarker _ => "PackageMarker"
  | unknownStruct _ _ => "UnknownStruct"

/-- The wording of a finding. -/
def message : Issue → String
  | requestWithoutResponse name => "request '" ++ name ++ "' has no matching response"
  | responseWithoutRequest name => "response '" ++ name ++ "' has no matching request"
  | duplicateEndpoint logical role =>
    "message '" ++ logical ++ "' declares more than one " ++ role.label ++ " struct"
  | packageMarker name =>
    "struct '" ++ name ++ "' shares the package name and is excluded from generation"
  | unknownStruct location type =>
    "'" ++ location ++ "' embeds unknown struct '" ++ type ++ "'"

end Issue

/-- A side of a message: a role and a logical name. -/
abbrev Side := Role × String

/-- The side of a struct that is a request or response. -/
def StructDef.side (s : StructDef) : Option Side := s.logicalName.map (s.role, ·)

/-- The findings about the side of a struct: it is there more than once, and the other side
of the message is missing. A side is reported once; `earlier` holds those before. -/
def endpointIssues (sides earlier : List Side) (s : StructDef) : List Issue :=
  match s.side with
  | none => []
  | some (role, logical) =>
    (if sides.count (role, logical) > 1 && !earlier.contains (role, logical)
      then [.duplicateEndpoint logical role] else []) ++
    (match role with
      | .request => if sides.contains (.response, logical) then []
          else [.requestWithoutResponse s.name]
      | .response => if sides.contains (.request, logical) then []
          else [.responseWithoutRequest s.name]
      | .plain => [])

/-- The findings about the sides of structs that come after others. -/
def allEndpointIssues (sides : List Side) : List Side → List StructDef → List Issue
  | _, [] => []
  | earlier, s :: ss =>
    endpointIssues sides earlier s ++ allEndpointIssues sides (s.side.toList ++ earlier) ss

/-- The names of structs in a type that are not known: its own, those of its key, those of
its element. -/
def Descriptor.unknownRefs (known : List String) : Descriptor → List String
  | ⟨kind, elem, key, len, name⟩ =>
    (match kind, name? ⟨kind, elem, key, len, name⟩ with
      | .struct, some type => if known.contains type then [] else [type]
      | _, _ => []) ++
    (match key with
      | some k => k.unknownRefs known
      | none => []) ++
    (match elem with
      | some e => e.unknownRefs known
      | none => [])

/-- The findings about structs that the fields of a struct embed. -/
def StructDef.unknownStructs (known : List String) (s : StructDef) : List Issue :=
  s.fields.flatMap fun f =>
    (f.type.unknownRefs known).map (.unknownStruct (s.name ++ "." ++ f.name))

/-- The findings about a document: markers of the package, endpoints, unknown structs. -/
def Document.issues (doc : Document) : List Issue :=
  let structs := doc.messageStructs
  ((doc.structs.filter doc.isMarker).map fun s => .packageMarker s.name) ++
    allEndpointIssues (structs.filterMap StructDef.side) [] structs ++
    structs.flatMap (StructDef.unknownStructs (structs.map StructDef.name))

end WireSchema
