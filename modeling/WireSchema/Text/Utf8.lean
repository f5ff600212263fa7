-- Text as the bytes of its UTF-8 form.

namespace WireSchema.Text

/-- The bytes of a text. -/
def bytes (s : String) : List UInt8 := s.toUTF8.data.toList

/-- The text of bytes that are valid. -/
def ofBytes? (bs : List UInt8) : Option String := String.fromUTF8? (ByteArray.mk bs.toArray)

end WireSchema.Text
