-- Structural checks of a document: names are not empty, fields of a struct have different
-- names, and each descriptor carries what its kind needs and nothing else.
import WireSchema.Schema.Document
import WireSchema.Text.Blank

namespace WireSchema

/-- What is wrong at a place of a document. -/
inductive Flaw where
  | emptyPackage
  | emptyStructName
  | emptyFieldName
  | duplicateField
  | elemMissing (kind : Kind)
  | elemUnwanted (kind : Kind)
  | keyMissing
  | keyUnwanted (kind : Kind)
  | structUnnamed

/-- The wording of a flaw. -/
def Flaw.reason : Flaw → String
  | emptyPackage => "package name is empty"
  | emptyStructName => "struct with an empty name"
  | emptyFieldName => "field with an empty name"
  | duplicateField => "duplicate field name"
  | elemMissing kind => kind.label ++ " requires an elem type"
  | elemUnwanted kind => kind.label ++ " must not carry an elem type"
  | keyMissing => "map requires a key type"
  | keyUnwanted kind => kind.label ++ " must not carry a key type"
  | structUnnamed => "struct reference without a name"

/-- A flaw and where it is. -/
structure Malformed where
  location : String
  flaw : Flaw

/-- The wording of a flaw with its place. -/
def Malformed.message (m : Malformed) : String :=
  "malformed schema at '" ++ m.location ++ "': " ++ m.flaw.reason

namespace Descriptor

/-- The flaw of the descriptor itself, whatever its parts are. -/
def flaw? (ty : Descriptor) : Option Flaw :=
  if ty.kind.needsElem && ty.elem.isNone then some (.elemMissing ty.kind)
  else if !ty.kind.needsElem && ty.elem.isSome then some (.elemUnwanted ty.kind)
  else if ty.kind.needsKey && ty.key.isNone then some .keyMissing
  else if !ty.kind.needsKey && ty.key.isSome then some (.keyUnwanted ty.kind)
  else if ty.kind == .struct && ty.name?.isNone then some .structUnnamed
  else none

/-- Checks a descriptor, then its key, then its element. -/
def check (location : String) : Descriptor → Except Malformed Unit
  | ⟨kind, elem, key, len, name⟩ => do
    match flaw? ⟨kind, elem, key, len, name⟩ with
    | some f => throw ⟨location, f⟩
    | none => pure ()
    match key with
    | some k => k.check (location ++ ".key")
    | none => pure ()
    match elem with
    | some e => e.check (location ++ ".elem")
    | none => pure ()

end Descriptor

/-- Checks the fields after those whose names were seen. -/
def StructDef.checkFields (owner : String) (seen : List String) : List Field → Except Malformed Unit
  | [] => pure ()
  | f :: fs => do
    let location := owner ++ "." ++ f.name
    if Text.allBlank f.name then throw ⟨owner, .emptyFieldName⟩
    if seen.contains f.name then throw ⟨location, .duplicateField⟩
    f.type.check location
    checkFields owner (f.name :: seen) fs

/-- Checks a struct of a package. -/
def StructDef.check (package : String) (s : StructDef) : Except Malformed Unit := do
  if Text.allBlank s.name then throw ⟨package, .emptyStructName⟩
  checkFields s.name [] s.fields

/-- Checks a document; the first flaw in order of declaration is the answer. -/
def Document.check (doc : Document) : Except Malformed Unit := do
  if Text.allBlank doc.package then throw ⟨"package", .emptyPackage⟩
  doc.structs.forM (·.check doc.package)

end WireSchema
