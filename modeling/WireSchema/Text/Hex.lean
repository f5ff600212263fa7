-- Bytes as hexadecimal text: two digits a byte, written in lower case and read in either.

namespace WireSchema.Hex

/-- The lower-case digit of a number below sixteen. -/
def digit (n : Nat) : Char :=
  if n < 10 then Char.ofNat (48 + n) else Char.ofNat (87 + n)

/-- The number of a digit. -/
def digit? (c : Char) : Option Nat :=
  if '0' ≤ c ∧ c ≤ '9' then some (c.toNat - 48)
  else if 'a' ≤ c ∧ c ≤ 'f' then some (c.toNat - 87)
  else if 'A' ≤ c ∧ c ≤ 'F' then some (c.toNat - 55)
  else none

/-- The digits of the bytes, in order. -/
def encode (bytes : List UInt8) : String :=
  String.ofList (bytes.flatMap fun b => [digit (b.toNat / 16), digit (b.toNat % 16)])

/-- The bytes that pairs of digits stand for. -/
def ofDigits? : List Char → Option (List UInt8)
  | [] => some []
  | [_] => none
  | hi :: lo :: rest => do
    let h ← digit? hi
    let l ← digit? lo
    let bytes ← ofDigits? rest
    return UInt8.ofNat (16 * h + l) :: bytes

/-- Reads a text of digit pairs. -/
def decode? (s : String) : Option (List UInt8) := ofDigits? s.toList

/-- Reads digit pairs that may follow a leading `0x`. -/
def decodeMarked? (s : String) : Option (List UInt8) :=
  match s.toList with
  | '0' :: 'x' :: digits => ofDigits? digits
  | digits => ofDigits? digits

end WireSchema.Hex
