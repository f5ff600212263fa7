-- What can go wrong with a value or a buffer, and where.
import WireSchema.Layout.Basic

namespace WireSchema

/-- One step of the way into a value. -/
inductive Segment where
  | field (name : String)
  | index (i : Nat)
  /-- A key of an object. -/
  | key (text : String)
  deriving DecidableEq

/-- A segment as text. -/
def Segment.text : Segment → String
  | field name => "." ++ name
  | index i => "[" ++ toString i ++ "]"
  | key text => "[" ++ text ++ "]"

/-- The way from a value to a part of it. -/
structure Path where
  root : String
  segments : List Segment
  deriving DecidableEq

namespace Path

/-- The way to a value itself. -/
def start (root : String) : Path := ⟨root, []⟩

/-- One step further. -/
def push (p : Path) (s : Segment) : Path := ⟨p.root, p.segments ++ [s]⟩

/-- The way to a field. -/
def field (p : Path) (name : String) : Path := p.push (.field name)

/-- The way to an element or entry. -/
def index (p : Path) (i : Nat) : Path := p.push (.index i)

/-- The way to the entry of a key. -/
def key (p : Path) (text : String) : Path := p.push (.key text)

/-- A path as text. -/
def text (p : Path) : String := p.root ++ String.join (p.segments.map Segment.text)

end Path

/-- How deep structs may stand inside each other. -/
def maxDepth : Nat := 64

/-- Why a value could not be measured, written or read. -/
inductive WireError where
  | layout (cause : LayoutError)
  | unknownType (type : String)
  | typeMismatch (path : Path) (expected found : String)
  | outOfRange (path : Path) (scalar : Scalar) (value : Int)
  | lengthMismatch (path : Path) (expected found : Nat)
  | countOverflow (path : Path) (count : Nat)
  | countLimit (path : Path) (count : Nat)
  | missingField (path : Path) (field : String)
  | unknownField (path : Path) (field : String)
  | outOfBounds (path : Path) (offset need len : Nat)
  | invalidUtf8 (path : Path) (offset : Nat)
  | trailingBytes (type : String) (consumed len : Nat)
  | depthExceeded (path : Path)
  deriving DecidableEq

namespace WireError

/-- A message about a place. -/
def located (path : Path) (text : String) : String := "'" ++ path.text ++ "': " ++ text

/-- The wording of an error. -/
def message : WireError → String
  | layout cause => "failed to build wire layout: " ++ cause.message
  | unknownType type => "type '" ++ type ++ "' not found in schema"
  | typeMismatch path expected found => located path s!"expected {expected}, found {found}"
  | outOfRange path scalar value =>
    located path (toString value ++ " does not fit in " ++ scalar.label)
  | lengthMismatch path expected found =>
    located path s!"expected exactly {expected} elements, found {found}"
  | countOverflow path count => located path s!"{count} elements exceed the length prefix range"
  | countLimit path count =>
    located path s!"count {count} exceeds the limit of {maxEmptyElements} zero-width elements"
  | missingField path field => located path ("struct value is missing field '" ++ field ++ "'")
  | unknownField path field => located path ("struct value has unknown field '" ++ field ++ "'")
  | outOfBounds path offset need len =>
    located path s!"{need} bytes at offset {offset} exceed buffer of {len} bytes"
  | invalidUtf8 path offset => located path s!"invalid UTF-8 in string at offset {offset}"
  | trailingBytes type consumed len =>
    "type '" ++ type ++ "' consumed " ++ s!"{consumed} of {len} bytes"
  | depthExceeded path => located path s!"struct nesting exceeds {maxDepth} levels"

end WireError

end WireSchema
