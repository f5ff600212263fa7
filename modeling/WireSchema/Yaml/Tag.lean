-- Tags of a YAML text, and the directives that say what the handles of tags are short for.
import WireSchema.Text.Hex
import WireSchema.Text.Utf8
import WireSchema.Yaml.Cursor

namespace WireSchema.Yaml

/-- The full name of a tag, as bytes. -/
abbrev Tag := List UInt8

namespace Tag

/-- The tag of the node that stands for nothing. -/
def null : Tag := Text.bytes "tag:yaml.org,2002:null"

/-- The tag of whole numbers. -/
def int : Tag := Text.bytes "tag:yaml.org,2002:int"

/-- The name of a tag of the schema's own, which starts with an exclamation mark. -/
def own? : Tag → Option String
  | 0x21 :: name => Text.ofBytes? name
  | _ => none

end Tag

/-! ## Names of tags -/

/-- A character of a handle, of an anchor or of the name of a directive. -/
def isNameChar (c : Char) : Bool := c.isAlphanum || c == '_' || c == '-'

/-- A character that stands for itself in the name of a tag. Commas and brackets only do where
no flow collection can take them for its own. -/
def isTagChar (free : Bool) (c : Char) : Bool :=
  isNameChar c || ";/?:@&=+$.!~*'()".toList.contains c || (free && ",[]".toList.contains c)

/-- The byte that a percent sign and two digits stand for. -/
def octet? : List Char → Option (UInt8 × List Char)
  | '%' :: a :: b :: rest => do
    return (UInt8.ofNat (16 * (← Hex.digit? a) + (← Hex.digit? b)), rest)
  | _ => none

/-- How many bytes follow the first byte of a character. -/
def followers? (first : UInt8) : Option Nat :=
  if first < 0x80 then some 0
  else if 0xc0 ≤ first && first < 0xe0 then some 1
  else if 0xe0 ≤ first && first < 0xf0 then some 2
  else if 0xf0 ≤ first && first < 0xf8 then some 3
  else none

/-- The bytes that follow the first byte of a character. -/
def follow? : Nat → List Char → Option (List UInt8 × List Char)
  | 0, cs => some ([], cs)
  | n + 1, cs => do
    let (b, cs) ← octet? cs
    if b < 0x80 || 0xc0 ≤ b then none
    let (bs, cs) ← follow? n cs
    return (b :: bs, cs)

/-- The bytes of a character that is written with percent signs. -/
def escaped? (cs : List Char) : Option (List UInt8 × List Char) := do
  let (b, cs) ← octet? cs
  let (bs, cs) ← follow? (← followers? b) cs
  return (b :: bs, cs)

/-- Reads the name of a tag as far as it goes. -/
def tagName? (free : Bool) : Nat → List Char → Option (List UInt8 × List Char)
  | 0, _ => none
  | fuel + 1, cs =>
    match cs with
    | [] => some ([], [])
    | c :: rest =>
      if c == '%' then do
        let (bs, rest) ← escaped? cs
        let (more, rest) ← tagName? free fuel rest
        return (bs ++ more, rest)
      else if isTagChar free c then do
        let (more, rest) ← tagName? free fuel rest
        return (UInt8.ofNat c.toNat :: more, rest)
      else some ([], cs)

/-- A name ends at a zero byte. -/
def untilZero (bs : List UInt8) : List UInt8 := bs.takeWhile (· != 0)

/-- Reads the name of a tag that has at least one character. -/
def fullTagName? (free : Bool) (cs : List Char) : Option (List UInt8 × List Char) := do
  let (bs, rest) ← tagName? free (cs.length + 1) cs
  if bs.isEmpty then none
  return (untilZero bs, rest)

/-! ## Directives -/

/-- What the directives of a document say. -/
structure Directives where
  /-- The version of the language was given. -/
  versioned : Bool
  /-- Handles that were declared, and what they are short for. -/
  handles : List (String × Tag)

namespace Directives

/-- No directive. -/
def empty : Directives := ⟨false, []⟩

/-- What a handle is short for. Two handles need no declaration. -/
def handle? (d : Directives) (name : String) : Option Tag :=
  (d.handles ++ [("!", Text.bytes "!"), ("!!", Text.bytes "tag:yaml.org,2002:")]).lookup name

/-- Reads a tag, from its exclamation mark on: a full name between angle brackets, a handle and
the rest of the name, or a name of the schema's own. -/
def tag? (d : Directives) : List Char → Option (Tag × List Char)
  | '!' :: '<' :: cs => do
    let (name, rest) ← fullTagName? true cs
    match rest with
    | '>' :: rest => return (name, rest)
    | _ => none
  | '!' :: cs => do
    let word := cs.takeWhile isNameChar
    match cs.drop word.length with
    | '!' :: rest =>
      let (name, rest) ← fullTagName? false rest
      return ((← d.handle? (String.ofList ('!' :: word ++ ['!']))) ++ name, rest)
    | rest =>
      let (name, rest) ← tagName? false (rest.length + 1) rest
      let name := untilZero (Text.bytes (String.ofList word) ++ name)
      if name.isEmpty then return (Text.bytes "!", rest)
      else return ((← d.handle? "!") ++ name, rest)
  | _ => none

/-- A number of a version: one to nine digits. -/
def versionNumber? (cs : List Char) : Option (Nat × List Char) :=
  let digits := cs.takeWhile Char.isDigit
  if digits.isEmpty || digits.length > 9 then none
  else some (digits.foldl (fun n d => 10 * n + (d.toNat - 48)) 0, cs.drop digits.length)

/-- Reads the version of the language, once. -/
def version? (d : Directives) (cs : List Char) : Option (Directives × List Char) := do
  let (major, rest) ← versionNumber? cs
  match rest with
  | '.' :: rest =>
    let (minor, rest) ← versionNumber? rest
    if d.versioned || major != 1 || !(minor == 1 || minor == 2) then none
    return ({ d with versioned := true }, rest)
  | _ => none

/-- Reads the declaration of a handle. -/
def declare? (d : Directives) : List Char → Option (Directives × List Char)
  | '!' :: cs => do
    let word := cs.takeWhile isNameChar
    let rest := cs.drop word.length
    let (name, rest) ← match rest with
      | '!' :: rest => some (String.ofList ('!' :: word ++ ['!']), rest)
      | rest => if word.isEmpty then some ("!", rest) else none
    if !rest.head?.any isBlank || d.handles.any (·.1 == name) then none
    let (tag, rest) ← fullTagName? true (rest.dropWhile isBlank)
    if !blankNext rest then none
    return ({ d with handles := d.handles ++ [(name, tag)] }, rest)
  | _ => none

/-- Reads a directive after its percent sign. -/
def read? (d : Directives) (cs : List Char) : Option (Directives × List Char) :=
  let name := cs.takeWhile isNameChar
  let rest := cs.drop name.length
  let value := rest.dropWhile isBlank
  if !blankNext rest then none
  else if name == "YAML".toList then d.version? value
  else if name == "TAG".toList then d.declare? value
  else none

end Directives

end WireSchema.Yaml
