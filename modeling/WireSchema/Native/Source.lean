-- The Rust source of a document: one module with the helpers, the exchange and a type for
-- each struct.
import WireSchema.Native.Exchange
import WireSchema.Native.Method
import WireSchema.Native.Support
import WireSchema.Program.Lower

namespace WireSchema.Native

open Code

/-! ## What the language can express -/

/-- What cannot be expressed at a place of a document. -/
inductive Obstacle where
  | takenType
  | takenField (spelling other : String)
  | keyNotHashable

/-- The wording of an obstacle. -/
def Obstacle.reason : Obstacle → String
  | takenType => "struct name collides with a generated item"
  | takenField spelling other =>
    "field name maps to '" ++ spelling ++ "', already used by '" ++ other ++ "'"
  | keyNotHashable => "map key type is not hashable in Rust (float, struct or map)"

/-- An obstacle and where it is. -/
structure Unsupported where
  location : String
  obstacle : Obstacle

/-- The wording of an obstacle with its place. -/
def Unsupported.message (u : Unsupported) : String :=
  "'" ++ u.location ++ "' cannot be generated for this target: " ++ u.obstacle.reason

/-- Types that the module defines for itself. -/
def ownTypes : List String := ["CodecError", "Scalar", "MessageId", "Transport", "Handlers"]

/-- Checks the keys of maps inside a type. -/
def checkType (location : String) : Descriptor → Except Unsupported Unit
  | ⟨_, elem, key, _, _⟩ => do
    match key with
    | some k =>
      if !isHashable k then throw ⟨location, .keyNotHashable⟩
      checkType (location ++ ".key") k
    | none => pure ()
    match elem with
    | some e => checkType (location ++ ".elem") e
    | none => pure ()

/-- Checks the fields after those whose spellings and names are taken. -/
def checkFields (owner : String) (taken : List (String × String)) :
    List Field → Except Unsupported Unit
  | [] => pure ()
  | f :: fs => do
    let location := owner ++ "." ++ f.name
    let spelling := fieldName f.name
    match taken.find? (·.1 == spelling) with
    | some (_, other) => throw ⟨location, .takenField spelling other⟩
    | none => pure ()
    checkType location f.type
    checkFields owner (taken ++ [(spelling, f.name)]) fs

/-- Checks that a struct can be expressed. -/
def checkStruct (s : StructDef) : Except Unsupported Unit := do
  if ownTypes.contains s.name then throw ⟨s.name, .takenType⟩
  checkFields s.name [] s.fields

/-! ## Types -/

/-- What a field starts with. -/
inductive Initial where
  /-- The default of its type. -/
  | usual
  /-- A list of so many defaults of its element type. -/
  | elements (len : UInt32)
  /-- So many bytes of zero. -/
  | zeros (len : UInt32)
  deriving DecidableEq

/-- What a field of a type starts with. Fixed lengths are filled, so that a new value can be
written at once. -/
def initial (type : Descriptor) : Initial :=
  let ty := type.unwrapped
  match ty.kind with
  | .array => if ty.isFixed then .elements ty.len else .usual
  | .bytes => if ty.isFixed then .zeros ty.len else .usual
  | _ => .usual

/-- The expression of what a field starts with. -/
def Initial.text : Initial → String
  | usual => "Default::default()"
  | elements len => s!"(0..{len}).map(|_| Default::default()).collect()"
  | zeros len => s!"vec![0u8; {len}]"

/-- The declaration of a field. -/
def fieldDecl (f : Field) : Code :=
  let ty := f.type.unwrapped
  let len := ty.len
  let remark := if ty.isFixed then s!" /* exactly {len} elements on the wire */" else ""
  .line ("pub " ++ fieldName f.name ++ ": " ++ typeName f.type ++ "," ++ remark)

/-- The type of a struct and its default. -/
def structType (s : StructDef) : List Code :=
  let name := s.name
  [.line "#[derive(Debug, Clone, PartialEq)]",
    braces s!"pub struct {name}" (s.fields.map fieldDecl),
    .blank,
    braces s!"impl Default for {name}"
      [braces "fn default() -> Self"
        [braces "Self" (s.fields.map fun f =>
          .line (fieldName f.name ++ ": " ++ (initial f.type).text ++ ","))]]]

/-! ## The module -/

/-- The groups of code of the structs. -/
def structGroups (doc : Document) (p : DocumentProgram) : List (List Code) :=
  (doc.messageStructs.zip p.types).map fun (s, types) =>
    structType s ++ [.blank, methods types]

/-- The checks that the module switches off. -/
def allowances : String :=
  "#[allow(dead_code, unused_imports, unused_mut, unused_variables, unused_assignments, " ++
    "non_camel_case_types, non_snake_case, clippy::all)]"

/-- The source of a document, from its catalog and programs. -/
def source (transportPath : Option String) (doc : Document) (c : Catalog) (p : DocumentProgram) :
    List Code :=
  let package := doc.package
  let groups := [[.line "use std::cell::RefCell;", .line "use std::rc::Rc;"], support,
      messageEnum c, [serviceId c], transport transportPath, handlers c, client c] ++
    structGroups doc p
  [.line s!"/* Generated by wirebuf-gen from package '{package}' */",
    .blank,
    .line allowances,
    braces ("pub mod " ++ moduleName package) (separated groups)]

end WireSchema.Native
