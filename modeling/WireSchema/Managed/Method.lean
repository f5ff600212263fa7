-- Programs as C# methods.
import WireSchema.Code
import WireSchema.Managed.TypeName
import WireSchema.Program.Spelling

namespace WireSchema.Managed

open Code

/-- The ending of the names of a scalar's helpers. -/
def scalarEnding : Scalar → String
  | .bool => "Bool"
  | .i8 => "Int8"
  | .u8 => "Uint8"
  | .i16 => "Int16"
  | .u16 => "Uint16"
  | .i32 => "Int32"
  | .u32 => "Uint32"
  | .i64 => "Int64"
  | .u64 => "Uint64"
  | .f32 => "Float32"
  | .f64 => "Float64"

/-- A place in an expression. -/
def place : Place → String
  | .field name => "this." ++ name
  | .temp name => name

/-- A count in an expression. -/
def count : Count → String
  | .fixed len => toString len.toNat
  | .var name => name

/-- The code that adds to the size. -/
def sizeTerm : SizeTerm → Code
  | .const bytes => .line s!"size += {bytes};"
  | .utf8Len of => .line ("size += StringSize(" ++ place of ++ ");")
  | .byteLen of => .line ("size += BytesSize(" ++ place of ++ ");")
  | .countTimes of width => .line ("size += " ++ place of ++ s!".Count * {width};")
  | .optional value width =>
    braces ("if (" ++ place value ++ ".HasValue)") [.line s!"size += {width};"]
  | .nested of => .line ("size += " ++ place of ++ ".Size();")

/-- A loop over the elements of a container. -/
def forEach (source : Place) (item : String) (body : List Code) : Code :=
  braces ("foreach (var " ++ item ++ " in " ++ place source ++ ")") body

/-- A loop over the entries of a map. -/
def forEachEntry (source : Place) (key value : String) (body : List Code) : Code :=
  let entry := key ++ "_" ++ value
  forEach source entry
    (.line s!"var {key} = {entry}.Key;" :: .line s!"var {value} = {entry}.Value;" :: body)

mutual

/-- The code of a step that measures. -/
def sizeOp : Op → Code
  | .addSize term => sizeTerm term
  | .forEach source item body => forEach source item (sizeOps body)
  | .forEachEntry source key value body => forEachEntry source key value (sizeOps body)
  | other => .line ("/* unexpected size op: " ++ other.spelled ++ " */")

/-- The code of a program that measures. -/
def sizeOps : List Op → List Code
  | [] => []
  | op :: ops => sizeOp op :: sizeOps ops

end

/-- The largest signed 32-bit number. -/
def largestInt : UInt64 := 0x7fffffff

mutual

/-- The code of a step that writes or reads. -/
def op : Op → List Code
  | .writeScalar scalar value =>
    [.line ("n = Put" ++ scalarEnding scalar ++ "(b, n, " ++ place value ++ ");")]
  | .writeNullable scalar value =>
    let v := place value
    let ending := scalarEnding scalar
    [braces s!"if ({v}.HasValue)"
        [.line "n = PutBool(b, n, true);", .line s!"n = Put{ending}(b, n, {v}.Value);"],
      braces "else" [.line "n = PutBool(b, n, false);"]]
  | .writeString value => [.line ("n = PutString(b, n, " ++ place value ++ ");")]
  | .writeBytes value none => [.line ("n = PutBytes(b, n, " ++ place value ++ ");")]
  | .writeBytes value (some len) =>
    [.line ("n = PutBlock(b, n, " ++ place value ++ s!", {len});")]
  | .writeCount of => [.line ("n = PutCount(b, n, " ++ place of ++ ".Count);")]
  | .checkLen of len =>
    [braces ("if (" ++ place of ++ s!".Length != {len})")
      [.line ("throw new ArgumentException(\"fixed-length field must hold exactly " ++
        s!"{len} elements\");")]]
  | .marshalNested value => [.line ("n = " ++ place value ++ ".Marshal(b, n);")]
  | .readScalar scalar target =>
    [.line (place target ++ " = Get" ++ scalarEnding scalar ++ "(b, ref n);")]
  | .readNullable scalar target =>
    let t := place target
    let ending := scalarEnding scalar
    [braces "if (GetBool(b, ref n))" [.line s!"{t} = Get{ending}(b, ref n);"],
      braces "else" [.line s!"{t} = null;"]]
  | .readString target => [.line (place target ++ " = GetString(b, ref n);")]
  | .readBytes target none => [.line (place target ++ " = GetBytes(b, ref n);")]
  | .readBytes target (some len) => [.line (place target ++ s!" = GetBlock(b, ref n, {len});")]
  | .readCount var minWidth =>
    let width := min minWidth largestInt
    [.line s!"int {var} = GetElementCount(b, ref n, {width});"]
  | .unmarshalNested target type =>
    let t := place target
    [.line (t ++ " = new " ++ typeName type ++ "();"), .line s!"n = {t}.Unmarshal(b, n);"]
  | .declareLocal var type =>
    let t := typeName type
    [.line s!"{t} {var} = default({t});"]
  | .newList var elem (.fixed len) =>
    let e := typeName elem
    [.line (arrayType e ++ s!" {var} = " ++ newArray e len ++ ";")]
  | .newList var elem (.var _) =>
    let t := listType (typeName elem)
    [.line s!"{t} {var} = new {t}();"]
  | .newMap var key value =>
    let t := mapType (typeName key) (typeName value)
    [.line s!"{t} {var} = new {t}();"]
  | .append list item (some index) => [.line s!"{list}[{index}] = {item};"]
  | .append list item none => [.line s!"{list}.Add({item});"]
  | .insert map key value => [.line s!"{map}[{key}] = {value};"]
  | .assign target var => [.line (place target ++ s!" = {var};")]
  | .forEach source item body => [forEach source item (ops body)]
  | .forEachEntry source key value body => [forEachEntry source key value (ops body)]
  | .loop c index body =>
    let bound := count c
    [braces s!"for (int {index} = 0; {index} < {bound}; {index}++)" (ops body)]
  | .addSize term => [sizeTerm term]

/-- The code of a program that writes or reads. -/
def ops : List Op → List Code
  | [] => []
  | o :: os => op o ++ ops os

end

/-- The method that measures a value. -/
def sizeMethod (p : StructProgram) : Code :=
  braces "public int Size()" (.line "int size = 0;" :: sizeOps p.size ++ [.line "return size;"])

/-- The method that writes a value. -/
def marshalMethod (p : StructProgram) : Code :=
  braces "public int Marshal(byte[] b, int n)" (ops p.marshal ++ [.line "return n;"])

/-- The method that reads a value. -/
def unmarshalMethod (p : StructProgram) : Code :=
  braces "public int Unmarshal(byte[] b, int n)" (ops p.unmarshal ++ [.line "return n;"])

end WireSchema.Managed
