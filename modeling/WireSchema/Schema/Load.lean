-- Loading documents: decoding a text in its format, then the structural checks.
import WireSchema.Schema.Check
import WireSchema.Schema.Codec
import WireSchema.Text.Utf8
import WireSchema.Yaml.Format

namespace WireSchema

/-- The encoding of a schema text. -/
inductive SchemaFormat where
  | json | yaml
  deriving DecidableEq

/-- Why a document could not be loaded. -/
inductive LoadError where
  /-- The source could not be read. -/
  | unreadable (source cause : String)
  /-- The text is no document of the format. -/
  | undecodable (format : SchemaFormat)
  | malformed (m : Malformed)

/-- The wording of a loading error. -/
def LoadError.message : LoadError → String
  | unreadable source cause => "failed to read schema from " ++ source ++ ": " ++ cause
  | undecodable .json => "failed to decode JSON schema document"
  | undecodable .yaml => "failed to decode YAML schema document"
  | malformed m => m.message

namespace SchemaFormat

/-- The last name of a path, when it ends in one. -/
def lastName? (path : List Char) : Option (List Char) :=
  let parts := (path.splitOn '/').filter fun p => p != [] && p != ['.']
  match parts.getLast? with
  | some ['.', '.'] => none
  | other => other

/-- What follows the last point of a name that does not only start with one. -/
def extension? (name : List Char) : Option (List Char) :=
  let back := name.reverse.takeWhile (· != '.')
  if back.length + 1 < name.length then some back.reverse else none

/-- The format that the end of a file's name shows; JSON when it shows none. -/
def ofPath (path : String) : SchemaFormat :=
  match (lastName? path.toList).bind extension? with
  | some ['y', 'a', 'm', 'l'] => .yaml
  | some ['y', 'm', 'l'] => .yaml
  | _ => .json

end SchemaFormat

namespace Document

/-- Decodes a text. -/
def decodeText? (text : String) : SchemaFormat → Option Document
  | .json => Json.decodeText? ofNode? text
  | .yaml => Yaml.decodeText? (Document.decode? · Yaml.maxDepth) text

/-- Decodes a text without further checks. -/
def read (text : String) (format : SchemaFormat) : Except LoadError Document :=
  match decodeText? text format with
  | some doc => .ok doc
  | none => .error (.undecodable format)

/-- Decodes and checks a text. -/
def load (text : String) (format : SchemaFormat) : Except LoadError Document := do
  let doc ← read text format
  match doc.check with
  | .ok () => return doc
  | .error m => throw (.malformed m)

/-- Decodes and checks the bytes of a source. -/
def loadBytes (bytes : List UInt8) (source : String) (format : SchemaFormat) :
    Except LoadError Document :=
  match Text.ofBytes? bytes with
  | some text => load text format
  | none => .error (.unreadable source "stream did not contain valid UTF-8")

end Document

end WireSchema
