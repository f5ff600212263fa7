-- Programs as Rust methods.
import WireSchema.Code
import WireSchema.Native.Name
import WireSchema.Program.Spelling

namespace WireSchema.Native

open Code

/-- A place in an expression. -/
def place : Place → String
  | .field name => "self." ++ fieldName name
  | .temp name => name

/-- The value at a place. Temporaries of a writer are references. -/
def placeValue : Place → String
  | .field name => "self." ++ fieldName name
  | .temp name => "*" ++ name

/-- A reference to a place of a writer. -/
def placeRef : Place → String
  | .field name => "&self." ++ fieldName name
  | .temp name => name

/-- A count in an expression. -/
def count : Count → String
  | .fixed len => toString len.toNat
  | .var name => name

/-- The code that adds to the size. -/
def sizeTerm : SizeTerm → Code
  | .const bytes => .line s!"size += {bytes};"
  | .utf8Len of | .byteLen of => .line ("size += " ++ place of ++ ".len();")
  | .countTimes of width => .line ("size += " ++ place of ++ s!".len() * {width};")
  | .optional value width =>
    braces ("if " ++ place value ++ ".is_some()") [.line s!"size += {width};"]
  | .nested of => .line ("size += " ++ place of ++ ".size();")

/-- A loop over the elements of a container. -/
def forEach (source : Place) (item : String) (body : List Code) : Code :=
  braces ("for " ++ item ++ " in " ++ place source ++ ".iter()") body

/-- A loop over the entries of a map. -/
def forEachEntry (source : Place) (key value : String) (body : List Code) : Code :=
  forEach source ("(" ++ key ++ ", " ++ value ++ ")") body

/-- A remark in place of a step that does not belong into a program. -/
def unexpected (program : String) (op : Op) : Code :=
  .line ("/* unexpected " ++ program ++ " op: " ++ op.spelled ++ " */")

mutual

/-- The code of a step that measures. -/
def sizeOp : Op → Code
  | .addSize term => sizeTerm term
  | .forEach source item body => forEach source item (sizeOps body)
  | .forEachEntry source key value body => forEachEntry source key value (sizeOps body)
  | other => unexpected "size" other

/-- The code of a program that measures. -/
def sizeOps : List Op → List Code
  | [] => []
  | op :: ops => sizeOp op :: sizeOps ops

end

mutual

/-- The code of a step that writes. -/
def marshalOp : Op → Code
  | .writeScalar scalar value =>
    .line ("n = put::<" ++ scalar.name ++ ">(b, n, " ++ placeValue value ++ ");")
  | .writeNullable scalar value =>
    .line ("n = put_opt::<" ++ scalar.name ++ ">(b, n, " ++ placeValue value ++ ");")
  | .writeString value => .line ("n = put_str(b, n, " ++ placeRef value ++ ");")
  | .writeBytes value none => .line ("n = put_bytes(b, n, " ++ placeRef value ++ ");")
  | .writeBytes value (some len) =>
    .line ("n = put_block(b, n, " ++ placeRef value ++ s!", {len});")
  | .writeCount of => .line ("n = put_len(b, n, " ++ place of ++ ".len());")
  | .checkLen of len =>
    .line ("assert_eq!(" ++ place of ++
      s!".len(), {len}, \"fixed-length field must hold exactly {len} elements\");")
  | .marshalNested value => .line ("n = " ++ place value ++ ".marshal(b, n);")
  | .forEach source item body => forEach source item (marshalOps body)
  | .forEachEntry source key value body => forEachEntry source key value (marshalOps body)
  | other => unexpected "marshal" other

/-- The code of a program that writes. -/
def marshalOps : List Op → List Code
  | [] => []
  | op :: ops => marshalOp op :: marshalOps ops

end

/-- The largest 32-bit number. -/
def largestWord : UInt64 := 0xffffffff

mutual

/-- The code of a step that reads. -/
def unmarshalOp : Op → List Code
  | .readScalar scalar target =>
    [.line (place target ++ " = get::<" ++ scalar.name ++ ">(b, &mut n)?;")]
  | .readNullable scalar target =>
    [.line (place target ++ " = get_opt::<" ++ scalar.name ++ ">(b, &mut n)?;")]
  | .readString target => [.line (place target ++ " = get_str(b, &mut n)?;")]
  | .readBytes target none => [.line (place target ++ " = get_bytes(b, &mut n)?;")]
  | .readBytes target (some len) =>
    [.line (place target ++ s!" = get_block(b, &mut n, {len})?;")]
  | .readCount var minWidth =>
    let width := min minWidth largestWord
    [.line s!"let {var} = get_count(b, &mut n, {width})?;"]
  | .unmarshalNested target type =>
    let t := place target
    [.line (t ++ " = " ++ typeName type ++ "::default();"), .line s!"n = {t}.unmarshal(b, n)?;"]
  | .declareLocal var type =>
    [.line (s!"let mut {var}: " ++ typeName type ++ " = Default::default();")]
  | .newList var elem (.fixed len) =>
    [.line (s!"let mut {var}: " ++ listType (typeName elem) ++ s!" = Vec::with_capacity({len});")]
  | .newList var elem (.var _) =>
    [.line (s!"let mut {var}: " ++ listType (typeName elem) ++ " = Vec::new();")]
  | .newMap var key value =>
    [.line (s!"let mut {var}: " ++ mapType (typeName key) (typeName value) ++
      " = indexmap::IndexMap::new();")]
  | .append list item _ => [.line s!"{list}.push({item});"]
  | .insert map key value => [.line s!"{map}.insert({key}, {value});"]
  | .assign target var => [.line (place target ++ s!" = {var};")]
  | .loop c _ body => [braces ("for _ in 0.." ++ count c) (unmarshalOps body)]
  | other => [unexpected "unmarshal" other]

/-- The code of a program that reads. -/
def unmarshalOps : List Op → List Code
  | [] => []
  | op :: ops => unmarshalOp op ++ unmarshalOps ops

end

/-- The method that measures a value. -/
def sizeMethod (p : StructProgram) : Code :=
  braces "pub fn size(&self) -> usize"
    (.line "let mut size = 0usize;" :: sizeOps p.size ++ [.line "size"])

/-- The method that writes a value. -/
def marshalMethod (p : StructProgram) : Code :=
  braces "pub fn marshal(&self, b: &mut [u8], mut n: usize) -> usize"
    (marshalOps p.marshal ++ [.line "n"])

/-- The method that reads a value. -/
def unmarshalMethod (p : StructProgram) : Code :=
  braces "pub fn unmarshal(&mut self, b: &[u8], mut n: usize) -> Result<usize, CodecError>"
    (unmarshalOps p.unmarshal ++ [.line "Ok(n)"])

/-- The methods of a struct. -/
def methods (p : StructProgram) : Code :=
  braces ("impl " ++ p.typeName)
    (separated [[sizeMethod p], [marshalMethod p], [unmarshalMethod p]])

end WireSchema.Native
