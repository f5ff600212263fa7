-- The protobuf wire form, as far as a writer needs it: fields in order of their tags, and
-- nothing for a number or text that has its default.
import WireSchema.Text.Utf8

namespace WireSchema.Protobuf

/-- A number in groups of seven bits, the lowest first. All but the last group are marked. -/
def varint (n : Nat) : List UInt8 :=
  if n < 128 then [UInt8.ofNat n] else UInt8.ofNat (n % 128 + 128) :: varint (n / 128)
  decreasing_by omega

/-- A field with a number, left out when it is zero. -/
def number (tag n : Nat) : List UInt8 :=
  if n = 0 then [] else varint (8 * tag) ++ varint n

/-- A field with a block of bytes, written also when it is empty. -/
def block (tag : Nat) (bytes : List UInt8) : List UInt8 :=
  varint (8 * tag + 2) ++ varint bytes.length ++ bytes

/-- A field with a text, left out when it is empty. -/
def text (tag : Nat) (s : String) : List UInt8 :=
  if s.isEmpty then [] else block tag (Text.bytes s)

end WireSchema.Protobuf
