-- JSON as a tree: entries keep the order and the repetitions of the text. A tree that was
-- read may hold literals that stand for no value; only a reader that skips them may go on.
import WireSchema.Number.Decimal

namespace WireSchema

/-- A JSON text as a tree. -/
inductive Json where
  | null
  | bool (b : Bool)
  /-- A whole number, from `-2 ^ 63` up to `2 ^ 64 - 1` when it was read. -/
  | int (n : Int)
  | float (x : Binary64)
  | str (s : String)
  | arr (items : List Json)
  | obj (entries : List (String × Json))
  /-- A literal that is well formed and stands for no value: a number beyond the 64-bit
  floats, or a string with half of a surrogate pair. -/
  | fault

namespace Json

/-! ## Measures -/

mutual

/-- How many arrays and objects stand inside each other. -/
def depth : Json → Nat
  | .arr items => depthItems items + 1
  | .obj entries => depthEntries entries + 1
  | _ => 0

/-- The depth of the deepest item. -/
def depthItems : List Json → Nat
  | [] => 0
  | x :: xs => max x.depth (depthItems xs)

/-- The depth of the deepest value. -/
def depthEntries : List (String × Json) → Nat
  | [] => 0
  | (_, x) :: xs => max x.depth (depthEntries xs)

end

mutual

/-- Every literal of the tree stands for a value. -/
def isSound : Json → Bool
  | .fault => false
  | .arr items => soundItems items
  | .obj entries => soundEntries entries
  | _ => true

/-- Every item is sound. -/
def soundItems : List Json → Bool
  | [] => true
  | x :: xs => x.isSound && soundItems xs

/-- Every value is sound. -/
def soundEntries : List (String × Json) → Bool
  | [] => true
  | (_, x) :: xs => x.isSound && soundEntries xs

end

mutual

/-- A size that no text of the tree falls below, strings counted by their characters. So the
tree that a key spells is lighter than the object that holds the key. -/
def weight : Json → Nat
  | .str s => s.length + 1
  | .arr items => weightItems items + 1
  | .obj entries => weightEntries entries + 1
  | _ => 1

/-- The weight of all items. -/
def weightItems : List Json → Nat
  | [] => 0
  | x :: xs => x.weight + weightItems xs

/-- The weight of all keys and values. -/
def weightEntries : List (String × Json) → Nat
  | [] => 0
  | (k, x) :: xs => k.length + 1 + x.weight + weightEntries xs

end

/-! ## Repeated keys -/

/-- Sets the value of a key: in place when the key is there, else at the end. -/
def put (entries : List (String × Json)) (key : String) (value : Json) : List (String × Json) :=
  if entries.any (·.1 == key) then
    entries.map fun e => if e.1 == key then (key, value) else e
  else entries ++ [(key, value)]

mutual

/-- The tree with one entry for each key: the last value, at the place of the first. -/
def merged : Json → Json
  | .arr items => .arr (mergedItems items)
  | .obj entries => .obj (mergedEntries [] entries)
  | j => j

/-- The items with one entry for each key. -/
def mergedItems : List Json → List Json
  | [] => []
  | x :: xs => x.merged :: mergedItems xs

/-- The entries after those seen, one for each key. -/
def mergedEntries (seen : List (String × Json)) : List (String × Json) → List (String × Json)
  | [] => seen
  | (k, x) :: xs => mergedEntries (put seen k x.merged) xs

end

/-! ## Text -/

/-- The escape of a character below the space, after the backslash. -/
def controlEscape (c : Char) : String :=
  match c.toNat with
  | 8 => "b"
  | 9 => "t"
  | 10 => "n"
  | 12 => "f"
  | 13 => "r"
  | n => "u00" ++ String.ofList [if n < 16 then '0' else '1',
      if n % 16 < 10 then Char.ofNat (48 + n % 16) else Char.ofNat (87 + n % 16)]

/-- A character as it stands inside a string. -/
def escaped (c : Char) : String :=
  if c == '"' then "\\\""
  else if c == '\\' then "\\\\"
  else if c.toNat < 32 then "\\" ++ controlEscape c
  else c.toString

/-- A string between its quotes. -/
def quoted (s : String) : String := "\"" ++ String.join (s.toList.map escaped) ++ "\""

/-- The text of a tree without children. Infinities and NaNs are written as nothing. -/
def leafText : Json → String
  | .bool true => "true"
  | .bool false => "false"
  | .int n => toString n
  | .float x => if x.isFinite then Decimal.text x else "null"
  | .str s => quoted s
  | _ => "null"

mutual

/-- The text without blanks. -/
def compact : Json → String
  | .arr items => "[" ++ compactItems items ++ "]"
  | .obj entries => "\x7b" ++ compactEntries entries ++ "\x7d"
  | j => leafText j

/-- Items with commas between them. -/
def compactItems : List Json → String
  | [] => ""
  | [x] => x.compact
  | x :: xs => x.compact ++ "," ++ compactItems xs

/-- Entries with commas between them. -/
def compactEntries : List (String × Json) → String
  | [] => ""
  | [(k, x)] => quoted k ++ ":" ++ x.compact
  | (k, x) :: xs => quoted k ++ ":" ++ x.compact ++ "," ++ compactEntries xs

end

/-- A line end and the indent of a depth, two spaces a level. -/
def newline (level : Nat) : String := "\n" ++ String.ofList (List.replicate (2 * level) ' ')

mutual

/-- The text with one item a line, for a tree that stands at the given level. -/
def prettyAt (level : Nat) : Json → String
  | .arr [] => "[]"
  | .arr items => "[" ++ prettyItems (level + 1) items ++ newline level ++ "]"
  | .obj [] => "\x7b\x7d"
  | .obj entries => "\x7b" ++ prettyEntries (level + 1) entries ++ newline level ++ "\x7d"
  | j => leafText j

/-- Items, each on a line of its own. -/
def prettyItems (level : Nat) : List Json → String
  | [] => ""
  | [x] => newline level ++ x.prettyAt level
  | x :: xs => newline level ++ x.prettyAt level ++ "," ++ prettyItems level xs

/-- Entries, each on a line of its own. -/
def prettyEntries (level : Nat) : List (String × Json) → String
  | [] => ""
  | [(k, x)] => newline level ++ quoted k ++ ": " ++ x.prettyAt level
  | (k, x) :: xs =>
    newline level ++ quoted k ++ ": " ++ x.prettyAt level ++ "," ++ prettyEntries level xs

end

/-- The text with one item a line, indented by two spaces a level. -/
def pretty (j : Json) : String := j.prettyAt 0

end Json

end WireSchema
