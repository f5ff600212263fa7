-- Reading JSON text by the strict grammar: nothing before or after the value but blanks,
-- no comments, no trailing commas.
import WireSchema.Json.Basic
import WireSchema.Text.Hex

namespace WireSchema.Json

/-- What is left after the blanks of the grammar. -/
def skipBlank (cs : List Char) : List Char :=
  cs.dropWhile fun c => c == ' ' || c == '\n' || c == '\r' || c == '\t'

/-! ## Strings -/

/-- The number of four hexadecimal digits. -/
def fourDigits? (a b c d : Char) : Option Nat := do
  let a ← Hex.digit? a
  let b ← Hex.digit? b
  let c ← Hex.digit? c
  let d ← Hex.digit? d
  return ((a * 16 + b) * 16 + c) * 16 + d

/-- The character after a backslash that stands for one character. -/
def simpleEscape? : Char → Option Char
  | '"' => some '"'
  | '\\' => some '\\'
  | '/' => some '/'
  | 'b' => some '\x08'
  | 'f' => some '\x0c'
  | 'n' => some '\n'
  | 'r' => some '\r'
  | 't' => some '\t'
  | _ => none

/-- Reads up to the closing quote: the character numbers, latest first, with the halves of
surrogate pairs still apart, and the rest of the text. -/
def units? (read : List Nat) : List Char → Option (List Nat × List Char)
  | [] => none
  | '"' :: rest => some (read, rest)
  | '\\' :: 'u' :: a :: b :: c :: d :: rest =>
    match fourDigits? a b c d with
    | some n => units? (n :: read) rest
    | none => none
  | '\\' :: e :: rest =>
    match simpleEscape? e with
    | some c => units? (c.toNat :: read) rest
    | none => none
  | c :: rest => if c.toNat < 32 then none else units? (c.toNat :: read) rest

/-- Joins surrogate pairs; fails on a half that stands alone. -/
def joinPairs? : List Nat → Option (List Char)
  | [] => some []
  | [n] => if 0xd800 ≤ n && n < 0xe000 then none else some [Char.ofNat n]
  | n :: m :: rest =>
    if 0xd800 ≤ n && n < 0xdc00 then
      if 0xdc00 ≤ m && m < 0xe000 then
        (joinPairs? rest).map (Char.ofNat (0x10000 + (n - 0xd800) * 1024 + (m - 0xdc00)) :: ·)
      else none
    else if 0xdc00 ≤ n && n < 0xe000 then none
    else (joinPairs? (m :: rest)).map (Char.ofNat n :: ·)

/-- Reads a string after its opening quote. The string is missing when it holds half of a
surrogate pair. -/
def string? (cs : List Char) : Option (Option String × List Char) :=
  (units? [] cs).map fun (units, rest) => ((joinPairs? units.reverse).map String.ofList, rest)

/-! ## Numbers -/

/-- The number that decimal digits spell. -/
def ofDigits (ds : List Char) : Nat := ds.foldl (fun n d => 10 * n + (d.toNat - 48)) 0

/-- The digits at the start, and the rest. -/
def digits (cs : List Char) : List Char × List Char := cs.span Char.isDigit

/-- The digits after a point, none when there is no point. -/
def decimals? : List Char → Option (List Char × List Char)
  | '.' :: cs =>
    let (ds, rest) := digits cs
    if ds.isEmpty then none else some (ds, rest)
  | cs => some ([], cs)

/-- The exponent, missing when there is none. -/
def exponent? (cs : List Char) : Option (Option Int × List Char) :=
  match cs with
  | 'e' :: r | 'E' :: r =>
    let (negative, r) := match r with
      | '-' :: r => (true, r)
      | '+' :: r => (false, r)
      | r => (false, r)
    let (ds, rest) := digits r
    if ds.isEmpty then none
    else some (some (if negative then -(ofDigits ds : Int) else ofDigits ds), rest)
  | cs => some (none, cs)

/-- A float, or a fault when the decimal is too large for one. -/
def ofDecimal (negative : Bool) (ds : Nat) (exponent : Int) : Json :=
  match Decimal.value? negative ds exponent with
  | some x => .float x
  | none => .fault

/-- A number without point and exponent. The zero with a sign is a float. -/
def ofWhole (negative : Bool) (n : Nat) : Json :=
  if negative then
    if n != 0 && n ≤ 2 ^ (63 : Nat) then .int (-(n : Int)) else ofDecimal true n 0
  else if n < 2 ^ (64 : Nat) then .int n else ofDecimal false n 0

/-- Reads a number. -/
def number? (cs : List Char) : Option (Json × List Char) := do
  let (negative, cs) := match cs with
    | '-' :: r => (true, r)
    | cs => (false, cs)
  let (whole, cs) := digits cs
  if whole.isEmpty || (whole.length > 1 && whole.head? == some '0') then none
  let (places, cs) ← decimals? cs
  let (power, cs) ← exponent? cs
  if places.isEmpty && power.isNone then return (ofWhole negative (ofDigits whole), cs)
  let scale : Int := power.getD 0 - places.length
  return (ofDecimal negative (ofDigits (whole ++ places)) scale, cs)

/-! ## Values -/

mutual

/-- Reads a value after blanks. Each step down or along takes a unit of fuel. -/
def value? : Nat → List Char → Option (Json × List Char)
  | 0, _ => none
  | fuel + 1, cs =>
    match skipBlank cs with
    | 'n' :: 'u' :: 'l' :: 'l' :: rest => some (.null, rest)
    | 't' :: 'r' :: 'u' :: 'e' :: rest => some (.bool true, rest)
    | 'f' :: 'a' :: 'l' :: 's' :: 'e' :: rest => some (.bool false, rest)
    | '"' :: rest =>
      match string? rest with
      | some (some s, rest) => some (.str s, rest)
      | some (none, rest) => some (.fault, rest)
      | none => none
    | '[' :: rest =>
      match skipBlank rest with
      | ']' :: rest => some (.arr [], rest)
      | rest => items? fuel [] rest
    | '\x7b' :: rest =>
      match skipBlank rest with
      | '\x7d' :: rest => some (.obj [], rest)
      | rest => entries? fuel (some []) rest
    | rest => number? rest

/-- Reads the items of an array after those that were read, latest first. -/
def items? : Nat → List Json → List Char → Option (Json × List Char)
  | 0, _, _ => none
  | fuel + 1, read, cs =>
    match value? fuel cs with
    | none => none
    | some (x, rest) =>
      match skipBlank rest with
      | ',' :: rest => items? fuel (x :: read) rest
      | ']' :: rest => some (.arr (x :: read).reverse, rest)
      | _ => none

/-- Reads the entries of an object after those that were read, latest first. A key that
stands for no string spoils the object. -/
def entries? : Nat → Option (List (String × Json)) → List Char → Option (Json × List Char)
  | 0, _, _ => none
  | fuel + 1, read, cs =>
    match skipBlank cs with
    | '"' :: rest =>
      match string? rest with
      | none => none
      | some (key, rest) =>
        match skipBlank rest with
        | ':' :: rest =>
          match value? fuel rest with
          | none => none
          | some (x, rest) =>
            let read := do return ((← key), x) :: (← read)
            match skipBlank rest with
            | ',' :: rest => entries? fuel read rest
            | '\x7d' :: rest =>
              some (match read with
                | some es => .obj es.reverse
                | none => .fault, rest)
            | _ => none
        | _ => none
    | _ => none

end

/-- Reads a text that holds one value. -/
def parse? (s : String) : Option Json :=
  let cs := s.toList
  match value? (2 * cs.length + 2) cs with
  | some (j, rest) => if (skipBlank rest).isEmpty then some j else none
  | none => none

/-- The deepest nesting that a reader follows. -/
def maxDepth : Nat := 127

/-- Reads a text whose whole value is wanted: sound, not too deep, one entry for each key. -/
def read? (s : String) : Option Json := do
  let j ← parse? s
  if j.isSound && j.depth ≤ maxDepth then some j.merged else none

end WireSchema.Json
