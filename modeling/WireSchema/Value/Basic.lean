-- Values of messages, without types of their own.
import WireSchema.Number.Binary

namespace WireSchema

/-- A value. -/
inductive Value where
  /-- A scalar that is absent. -/
  | null
  | bool (b : Bool)
  /-- A signed integer of any width. -/
  | int (n : Int64)
  /-- An unsigned integer of any width. -/
  | uint (n : UInt64)
  | float (x : Binary64)
  | string (s : String)
  | bytes (bs : List UInt8)
  | array (items : List Value)
  /-- Pairs in wire order. -/
  | map (entries : List (Value × Value))
  /-- Fields in order of declaration. -/
  | struct (fields : List (String × Value))

namespace Value

/-- The name of the kind of value. -/
def kindName : Value → String
  | null => "null"
  | bool _ => "bool"
  | int _ => "int"
  | uint _ => "uint"
  | float _ => "float"
  | string _ => "string"
  | bytes _ => "bytes"
  | array _ => "array"
  | map _ => "map"
  | struct _ => "struct"

/-- The field of a struct. -/
def field? (v : Value) (name : String) : Option Value :=
  match v with
  | struct fields => fields.lookup name
  | _ => none

/-- The text of a string. -/
def text? : Value → Option String
  | string s => some s
  | _ => none

mutual

/-- Equality of values, where floats are compared as numbers. -/
def same : Value → Value → Bool
  | null, null => true
  | bool a, bool b => a == b
  | int a, int b => a == b
  | uint a, uint b => a == b
  | float a, float b => a.sameNumber b
  | string a, string b => a == b
  | bytes a, bytes b => a == b
  | array a, array b => sameItems a b
  | map a, map b => sameEntries a b
  | struct a, struct b => sameFields a b
  | _, _ => false

/-- Equality of elements one by one. -/
def sameItems : List Value → List Value → Bool
  | [], [] => true
  | a :: as, b :: bs => a.same b && sameItems as bs
  | _, _ => false

/-- Equality of entries one by one. -/
def sameEntries : List (Value × Value) → List (Value × Value) → Bool
  | [], [] => true
  | (k, v) :: as, (l, w) :: bs => k.same l && v.same w && sameEntries as bs
  | _, _ => false

/-- Equality of fields one by one, names included. -/
def sameFields : List (String × Value) → List (String × Value) → Bool
  | [], [] => true
  | (m, v) :: as, (n, w) :: bs => m == n && v.same w && sameFields as bs
  | _, _ => false

end

end Value

end WireSchema
