-- Messages: a number for each logical name, in order of first sight, and the requests and
-- responses of a document with their numbers.
import WireSchema.Schema.Document
import WireSchema.Text.Naming

namespace WireSchema

/-- The logical names with their numbers, in order of first sight. -/
structure MessageIds where
  numbers : List (String × Nat)

namespace MessageIds

/-- No name has a number yet. -/
def empty : MessageIds := ⟨[]⟩

/-- The number of a name. -/
def get? (ids : MessageIds) (name : String) : Option Nat := ids.numbers.lookup name

/-- The number of a name, which gets the next one on first sight. -/
def assign (ids : MessageIds) (name : String) : Nat × MessageIds :=
  let next := ids.numbers.length
  match ids.get? name with
  | some id => (id, ids)
  | none => (next, ⟨ids.numbers ++ [(name, next)]⟩)

/-- Every name with its number, in order of first sight. -/
def toList (ids : MessageIds) : List (String × Nat) := ids.numbers

end MessageIds

/-- A struct that is a request or response. -/
structure Endpoint where
  structName : String
  logicalName : String
  messageId : Nat

/-- The endpoints of a document and the numbers of all names known by then. -/
structure Catalog where
  package : String
  ids : List (String × Nat)
  requests : List Endpoint
  responses : List Endpoint

/-- A struct's role and endpoint, when it has a logical name. -/
def StructDef.endpoint (s : StructDef) : StateM MessageIds (Option (Role × Endpoint)) :=
  match s.logicalName with
  | none => return none
  | some logical => do
    let id ← modifyGet (·.assign logical)
    return some (s.role, ⟨s.name, logical, id⟩)

/-- The catalog of a document. Numbers go on from those that are known. -/
def Document.catalog (doc : Document) : StateM MessageIds Catalog := do
  let endpoints ← doc.messageStructs.mapM StructDef.endpoint
  let ofRole (role : Role) := endpoints.filterMap fun e =>
    e.bind fun e => if e.1 == role then some e.2 else none
  return ⟨doc.package, (← get).toList, ofRole .request, ofRole .response⟩

/-- The catalog of a document by itself. -/
def Document.ownCatalog (doc : Document) : Catalog := (doc.catalog.run MessageIds.empty).1

/-- The name of the constant that holds the number of the package's service. -/
def Catalog.serviceIdName (c : Catalog) : String := "ServiceID_" ++ Text.title c.package

end WireSchema
