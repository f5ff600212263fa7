-- The C# source of a document: one class with the exchange, the helpers and a nested class
-- for each struct.
import WireSchema.Managed.Exchange
import WireSchema.Managed.Support
import WireSchema.Program.Lower

namespace WireSchema.Managed

open Code Text

/-- The declaration of a field. -/
def fieldDecl (f : Field) : Code :=
  let type := typeName f.type
  let name := f.name
  match initializer? f.type with
  | some value => .line s!"public {type} {name} = {value};"
  | none => .line s!"public {type} {name};"

/-- The class of a struct: its fields and its codec. -/
def classOf (s : StructDef) (p : StructProgram) : Code :=
  braces ("public class " ++ s.name)
    (separated [s.fields.map fieldDecl, [sizeMethod p], [marshalMethod p], [unmarshalMethod p]])

/-- The classes of the structs. -/
def classes (doc : Document) (p : DocumentProgram) : List (List Code) :=
  (doc.messageStructs.zip p.types).map fun (s, types) => [classOf s types]

/-- The source of a document, from its catalog and programs. -/
def source (o : Options) (doc : Document) (c : Catalog) (p : DocumentProgram) : List Code :=
  let client := o.clientType
  let groups := [[.line s!"private {client} client;"], [messageEnum c], handlerSlots c,
      [constructor o c]] ++ (handlers c).map ([·]) ++ (senders o c).map ([·]) ++ [support] ++
    classes doc p
  [.line "using System;", .line "using System.Collections.Generic;", .line "using System.Text;",
    .blank,
    braces ("namespace " ++ o.nameSpace)
      [braces ("class " ++ title doc.package) (separated groups)]]

end WireSchema.Managed
