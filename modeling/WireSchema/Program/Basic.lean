-- Codec programs: for each struct, the steps that measure, write and read its values. A
-- step that writes or reads moves the offset by the bytes that it touches, so steps carry
-- no offsets.
import WireSchema.Layout.Document

namespace WireSchema

/-- Where a step finds or leaves a value. -/
inductive Place where
  /-- A field of the struct that the program belongs to. -/
  | field (name : String)
  /-- A temporary that an earlier step declared. -/
  | temp (name : String)
  deriving DecidableEq

/-- The name of the field or temporary. -/
def Place.name : Place → String
  | field name => name
  | temp name => name

/-- How many elements a container gets. -/
inductive Count where
  | fixed (len : UInt32)
  /-- As many as a temporary says. -/
  | var (name : String)
  deriving DecidableEq

/-- One addend of a size. -/
inductive SizeTerm where
  | const (bytes : UInt64)
  /-- The length of a string in bytes. -/
  | utf8Len (of : Place)
  /-- The length of a byte block. -/
  | byteLen (of : Place)
  /-- The number of elements times a width. -/
  | countTimes (of : Place) (width : UInt64)
  /-- The width when the value is present. The flag is an addend of its own. -/
  | optional (value : Place) (width : UInt64)
  /-- The size of an embedded struct. -/
  | nested (of : Place)
  deriving DecidableEq

/-- A step of a program. -/
inductive Op where
  | addSize (term : SizeTerm)
  | writeScalar (scalar : Scalar) (value : Place)
  | writeNullable (scalar : Scalar) (value : Place)
  | writeString (value : Place)
  /-- With a length the block is fixed and has no count in front. -/
  | writeBytes (value : Place) (len : Option UInt32)
  | writeCount (of : Place)
  /-- Stops unless the container has exactly `len` elements. -/
  | checkLen (of : Place) (len : UInt32)
  | marshalNested (value : Place)
  | readScalar (scalar : Scalar) (target : Place)
  | readNullable (scalar : Scalar) (target : Place)
  | readString (target : Place)
  | readBytes (target : Place) (len : Option UInt32)
  /-- Reads a count into a new temporary. A count that the rest of the input cannot hold,
  when each element takes at least `minWidth` bytes, is refused. -/
  | readCount (var : String) (minWidth : UInt64)
  | unmarshalNested (target : Place) (type : Descriptor)
  /-- A temporary with the default value of a type. -/
  | declareLocal (var : String) (type : Descriptor)
  | newList (var : String) (elem : Descriptor) (len : Count)
  | newMap (var : String) (key value : Descriptor)
  /-- Stores an item at an index of a list that has its length, else at its end. -/
  | append (list item : String) (index : Option String)
  | insert (map key value : String)
  | assign (target : Place) (var : String)
  | forEach (source : Place) (item : String) (body : List Op)
  | forEachEntry (source : Place) (key value : String) (body : List Op)
  | loop (count : Count) (index : String) (body : List Op)

/-- The programs of a struct. -/
structure StructProgram where
  typeName : String
  fields : List FieldLayout
  size : List Op
  marshal : List Op
  unmarshal : List Op

/-- The programs of a document. -/
structure DocumentProgram where
  version : UInt32
  package : String
  types : List StructProgram

/-- The version of the programs that documents get. -/
def programVersion : UInt32 := 1

/-- The programs of the first struct of the name. -/
def DocumentProgram.get? (p : DocumentProgram) (name : String) : Option StructProgram :=
  p.types.find? (·.typeName == name)

namespace Op

/-- The number of bytes that a step adds whatever the value is. -/
def constant? : Op → Option UInt64
  | addSize (.const bytes) => some bytes
  | _ => none

mutual

/-- How many steps a step is, those of its body included. -/
def count : Op → Nat
  | forEach _ _ body => countList body + 1
  | forEachEntry _ _ _ body => countList body + 1
  | loop _ _ body => countList body + 1
  | _ => 1

/-- How many steps a program has, those of all bodies included. -/
def countList : List Op → Nat
  | [] => 0
  | op :: ops => count op + countList ops

end

end Op

/-- The size of every value, when the size program only adds constants and their sum fits a
word. -/
def StructProgram.constantSize (p : StructProgram) : Option UInt64 :=
  p.size.foldlM (fun sum op => op.constant?.bind (Width.checkedAdd sum)) 0

end WireSchema
