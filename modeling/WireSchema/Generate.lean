-- Generating source code: the target languages, their options, and what can go wrong.
import WireSchema.Managed.Source
import WireSchema.Native.Source

namespace WireSchema

/-- Why a document has no source in a target language. -/
inductive GenerateError where
  | lowering (e : LoweringError)
  | unsupported (u : Native.Unsupported)

/-- The wording of a generation error. -/
def GenerateError.message : GenerateError → String
  | lowering e => "codec IR build failed: " ++ e.message
  | unsupported u => u.message

/-- The messages of a generation error and of its causes, from the outside. -/
def GenerateError.chain : GenerateError → List String
  | lowering e => (GenerateError.lowering e).message :: e.chain
  | unsupported u => [u.message]

/-- A target language with its options. -/
inductive Target where
  | managed (options : Managed.Options)
  | native (transportPath : Option String)

namespace Target

/-- The ending of the names of source files. -/
def extension : Target → String
  | managed _ => "cs"
  | native _ => "rs"

/-- The indent of a level. -/
def indent : Target → String
  | managed _ => "\t"
  | native _ => "    "

/-- Checks that the language can express the structs of a document. -/
def check (doc : Document) : Target → Except GenerateError Unit
  | managed _ => .ok ()
  | native _ => (doc.messageStructs.forM Native.checkStruct).mapError .unsupported

/-- The source of a document in the language. -/
def source (doc : Document) (c : Catalog) (p : DocumentProgram) : Target → List Code
  | managed options => Managed.source options doc c p
  | native path => Native.source path doc c p

end Target

/-- The source text of a document. -/
def Document.generate (doc : Document) (target : Target) : Except GenerateError String := do
  target.check doc
  let p ← doc.program.mapError .lowering
  return Code.render target.indent (target.source doc doc.ownCatalog p)

end WireSchema
