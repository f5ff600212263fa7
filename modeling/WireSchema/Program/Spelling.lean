-- Steps spelled out with the names of all their parts, for remarks in generated code.
import WireSchema.Program.Basic
import WireSchema.Text.Quoted

namespace WireSchema

/-- A name with its parts between braces. -/
def spelledRecord (name : String) (parts : List (String × String)) : String :=
  name ++ " \x7b " ++ ", ".intercalate (parts.map fun p => p.1 ++ ": " ++ p.2) ++ " \x7d"

/-- A part that may be left out. -/
def spelledOption : Option String → String
  | some s => "Some(" ++ s ++ ")"
  | none => "None"

/-- A descriptor spelled out. -/
def Descriptor.spelled : Descriptor → String
  | ⟨kind, elem, key, len, name⟩ =>
    let elem := match elem with
      | some e => some e.spelled
      | none => none
    let key := match key with
      | some k => some k.spelled
      | none => none
    spelledRecord "TypeDescriptor"
      [("kind", kind.label), ("elem", spelledOption elem), ("key", spelledOption key),
        ("len", toString len.toNat), ("name", spelledOption (name.map Text.quoted))]

/-- A place spelled out. -/
def Place.spelled : Place → String
  | field name => spelledRecord "Field" [("name", Text.quoted name)]
  | temp name => spelledRecord "Local" [("name", Text.quoted name)]

/-- A count spelled out. -/
def Count.spelled : Count → String
  | fixed len => spelledRecord "Fixed" [("len", toString len.toNat)]
  | var name => spelledRecord "Var" [("name", Text.quoted name)]

/-- An addend spelled out. -/
def SizeTerm.spelled : SizeTerm → String
  | const bytes => spelledRecord "Const" [("bytes", toString bytes.toNat)]
  | utf8Len of => spelledRecord "Utf8Len" [("of", of.spelled)]
  | byteLen of => spelledRecord "ByteLen" [("of", of.spelled)]
  | countTimes of width =>
    spelledRecord "CountTimes" [("of", of.spelled), ("width", toString width.toNat)]
  | optional value width =>
    spelledRecord "Optional" [("value", value.spelled), ("width", toString width.toNat)]
  | nested of => spelledRecord "Nested" [("of", of.spelled)]

/-- A length that may be left out. -/
def spelledLen (len : Option UInt32) : String := spelledOption (len.map fun n => toString n.toNat)

namespace Op

mutual

/-- A step spelled out. -/
def spelled : Op → String
  | addSize term => spelledRecord "AddSize" [("term", term.spelled)]
  | writeScalar scalar value =>
    spelledRecord "WriteScalar" [("scalar", scalar.label), ("value", value.spelled)]
  | writeNullable scalar value =>
    spelledRecord "WriteNullable" [("scalar", scalar.label), ("value", value.spelled)]
  | writeString value => spelledRecord "WriteString" [("value", value.spelled)]
  | writeBytes value len =>
    spelledRecord "WriteBytes" [("value", value.spelled), ("len", spelledLen len)]
  | writeCount of => spelledRecord "WriteCount" [("of", of.spelled)]
  | checkLen of len =>
    spelledRecord "CheckLen" [("of", of.spelled), ("len", toString len.toNat)]
  | marshalNested value => spelledRecord "MarshalNested" [("value", value.spelled)]
  | readScalar scalar target =>
    spelledRecord "ReadScalar" [("scalar", scalar.label), ("target", target.spelled)]
  | readNullable scalar target =>
    spelledRecord "ReadNullable" [("scalar", scalar.label), ("target", target.spelled)]
  | readString target => spelledRecord "ReadString" [("target", target.spelled)]
  | readBytes target len =>
    spelledRecord "ReadBytes" [("target", target.spelled), ("len", spelledLen len)]
  | readCount var minWidth =>
    spelledRecord "ReadCount"
      [("var", Text.quoted var), ("min_width", toString minWidth.toNat)]
  | unmarshalNested target type =>
    spelledRecord "UnmarshalNested" [("target", target.spelled), ("ty", type.spelled)]
  | declareLocal var type =>
    spelledRecord "DeclareLocal" [("var", Text.quoted var), ("ty", type.spelled)]
  | newList var elem len =>
    spelledRecord "NewList"
      [("var", Text.quoted var), ("elem", elem.spelled), ("len", len.spelled)]
  | newMap var key value =>
    spelledRecord "NewMap"
      [("var", Text.quoted var), ("key", key.spelled), ("value", value.spelled)]
  | append list item index =>
    spelledRecord "Append"
      [("list", Text.quoted list), ("item", Text.quoted item),
        ("index", spelledOption (index.map Text.quoted))]
  | insert map key value =>
    spelledRecord "Insert"
      [("map", Text.quoted map), ("key", Text.quoted key), ("value", Text.quoted value)]
  | assign target var =>
    spelledRecord "Assign" [("target", target.spelled), ("var", Text.quoted var)]
  | forEach source item body =>
    spelledRecord "ForEach"
      [("source", source.spelled), ("item", Text.quoted item),
        ("body", "[" ++ spelledList body ++ "]")]
  | forEachEntry source key value body =>
    spelledRecord "ForEachEntry"
      [("source", source.spelled), ("key", Text.quoted key), ("value", Text.quoted value),
        ("body", "[" ++ spelledList body ++ "]")]
  | loop count index body =>
    spelledRecord "Repeat"
      [("count", count.spelled), ("index", Text.quoted index),
        ("body", "[" ++ spelledList body ++ "]")]

/-- Steps spelled out one after the other. -/
def spelledList : List Op → String
  | [] => ""
  | [op] => spelled op
  | op :: ops => spelled op ++ ", " ++ spelledList ops

end

end Op

end WireSchema
