-- Schema documents: a package with its structs, the fields of each, and the role that a
-- struct plays in the message protocol.
import WireSchema.Schema.Descriptor

namespace WireSchema

/-- A named field and its type. -/
structure Field where
  name : String
  type : Descriptor

/-- The part that a struct plays in the protocol. -/
inductive Role where
  | request | response | plain
  deriving DecidableEq

namespace Role

/-- The spelling in a schema. -/
def name : Role → String
  | request => "request"
  | response => "response"
  | plain => "plain"

/-- The spelling in messages. -/
def label : Role → String
  | request => "Request"
  | response => "Response"
  | plain => "Plain"

/-- The role with the given spelling in a schema. -/
def ofName? (s : String) : Option Role := [request, response, plain].find? (·.name == s)

/-- The ending that names of structs of the role carry by convention. -/
def ending : Role → Option (List Char)
  | request => some ['R', 'e', 'q']
  | response => some ['R', 's', 'p']
  | plain => none

/-- The other side of an exchange. -/
def counterpart : Role → Option Role
  | request => some response
  | response => some request
  | plain => none

end Role

/-- What stands before the ending, when the name has it. -/
def stem? (name ending : List Char) : Option (List Char) :=
  if ending.isSuffixOf name then some (name.take (name.length - ending.length)) else none

/-- The name has the ending after something else. -/
def endsPast (name ending : List Char) : Bool :=
  match stem? name ending with
  | some (_ :: _) => true
  | _ => false

/-- The role that a name shows by its ending. -/
def Role.ofStructName (name : String) : Role :=
  if endsPast name.toList ['R', 'e', 'q'] then .request
  else if endsPast name.toList ['R', 's', 'p'] then .response
  else .plain

/-- A struct of a document. -/
structure StructDef where
  name : String
  /-- The role that the schema states. -/
  stated : Option Role
  fields : List Field

namespace StructDef

/-- The role that the schema states, or else the one that the name shows. -/
def role (s : StructDef) : Role := s.stated.getD (Role.ofStructName s.name)

/-- The name of the message of a request or response: the struct's name without the ending
of its role, or the whole name when nothing else would be left. -/
def logicalName (s : StructDef) : Option String :=
  s.role.ending.map fun ending =>
    match stem? s.name.toList ending with
    | some (c :: cs) => String.ofList (c :: cs)
    | _ => s.name

end StructDef

/-- Equal but for the case of ASCII letters. -/
def sameLetters (a b : String) : Bool :=
  a.toList.map Char.toLower == b.toList.map Char.toLower

/-- A schema document. -/
structure Document where
  package : String
  structs : List StructDef

namespace Document

/-- The struct only marks the package: it bears the package's name. -/
def isMarker (doc : Document) (s : StructDef) : Bool := sameLetters s.name doc.package

/-- The structs that have a codec, in order of declaration. -/
def messageStructs (doc : Document) : List StructDef :=
  doc.structs.filter fun s => !doc.isMarker s

/-- The first struct of the name that has a codec. -/
def find? (doc : Document) (name : String) : Option StructDef :=
  doc.structs.find? fun s => s.name == name && !doc.isMarker s

end Document

end WireSchema
