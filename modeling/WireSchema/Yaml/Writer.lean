-- Writing trees as YAML blocks. A text stands without quotes where no reader could take it
-- for anything else.
import WireSchema.Json.Basic
import WireSchema.Yaml.Cursor

namespace WireSchema.Yaml

/-! ## Texts -/

/-- Characters that may stand as they are. -/
def isPlainChar (c : Char) : Bool :=
  let n := c.toNat
  n == 10 || (32 ≤ n && n ≤ 126) || (0xa0 ≤ n && n != 0xfeff && n != 0xfffe && n != 0xffff)

/-- Words that some reader takes for a truth value, for nothing or for no number, whatever the
case of their letters. -/
def loadedWords : List String :=
  ["y", "yes", "n", "no", "on", "off", "true", "false", "null", "nil", "~", "nan"]

/-- A text that a reader could take for something else than a text. -/
def isAmbiguous (s : String) : Bool :=
  loadedWords.contains (String.ofList (s.toList.map Char.toLower)) ||
    match s.toList with
    | [] => true
    | c :: _ => c.isDigit || ['-', '.', '+'].contains c

/-- Nothing, a space, a tab or a line end. -/
def endsWord : Option Char → Bool
  | none => true
  | some c => c == ' ' || c == '\t' || c == '\x00' || isBreak c

/-- The character means something at this place of a block; `before` and `after` stand next
to it. -/
def isMark (before : Option Char) (c : Char) (after : Option Char) : Bool :=
  match before with
  | none =>
    ['#', ',', '[', ']', '\x7b', '\x7d', '&', '*', '!', '|', '>', '\'', '"', '%', '@',
      '\x60'].contains c || (['?', ':', '-'].contains c && endsWord after)
  | some _ => (c == ':' && endsWord after) || (c == '#' && endsWord before)

/-- A character of the text means something. -/
def hasMark : Option Char → List Char → Bool
  | _, [] => false
  | before, c :: cs => isMark before c cs.head? || hasMark (some c) cs

/-- Two neighbours of the text satisfy the tests. -/
def hasPair (p q : Char → Bool) : List Char → Bool
  | c :: d :: cs => (p c && q d) || hasPair p q (d :: cs)
  | _ => false

/-- How a text is written. -/
inductive Style where
  | plain | single | double | literal
  deriving DecidableEq

/-- The style of a text. Several lines are kept as they are where that is possible. -/
def style (s : String) : Style :=
  let cs := s.toList
  let isSpace := fun c => c == ' '
  let isEdge := fun (c : Option Char) => c.any fun c => c == ' ' || isBreak c
  let hidden := cs.any (! isPlainChar ·) || hasPair isSpace isBreak cs
  if cs.contains '\n' then
    if hidden || cs.getLast?.any isSpace then .double else .literal
  else if hidden || hasPair isBreak isSpace cs then .double
  else if isAmbiguous s || isEdge cs.head? || isEdge cs.getLast? || cs.any isBreak ||
      hasMark none cs || ['-', '-', '-'].isPrefixOf cs || ['.', '.', '.'].isPrefixOf cs then .single
  else .plain

/-- Upper-case hexadecimal digits of a number, at least `count`. -/
def upperHex (count n : Nat) : String :=
  let ds := (Nat.toDigits 16 n).map Char.toUpper
  String.ofList (List.replicate (count - ds.length) '0' ++ ds)

/-- A character between double quotes. -/
def doubleQuotedChar (c : Char) : String :=
  if c == '"' then "\\\""
  else if c == '\\' then "\\\\"
  else if isPlainChar c && !isBreak c then c.toString
  else
    let n := c.toNat
    match n with
    | 0 => "\\0"
    | 7 => "\\a"
    | 8 => "\\b"
    | 9 => "\\t"
    | 10 => "\\n"
    | 11 => "\\v"
    | 12 => "\\f"
    | 13 => "\\r"
    | 27 => "\\e"
    | 0x85 => "\\N"
    | 0x2028 => "\\L"
    | 0x2029 => "\\P"
    | _ =>
      if n ≤ 0xff then "\\x" ++ upperHex 2 n
      else if n ≤ 0xffff then "\\u" ++ upperHex 4 n
      else "\\U" ++ upperHex 8 n

/-- The mark of a literal: whether it starts with a space, and how its last line ends. -/
def literalMark (cs : List Char) : String :=
  let start := if cs.head?.any (fun c => c == ' ' || isBreak c) then "2" else ""
  let finish := match cs.reverse with
    | [] => "-"
    | [c] => if isBreak c then "+" else "-"
    | c :: d :: _ => if !isBreak c then "-" else if isBreak d then "+" else ""
  "|" ++ start ++ finish

/-- Moves lines to the right, unless they are empty. A line starts after a break, and at the
start of the text when it is `fresh`. -/
def shifted (indent : Nat) : (fresh : Bool) → List Char → List Char
  | _, [] => []
  | fresh, c :: cs =>
    if isBreak c then c :: shifted indent true cs
    else (if fresh then List.replicate indent ' ' else []) ++ c :: shifted indent false cs

/-- A text in its style; its lines after the first are indented. -/
def writeText (indent : Nat) (s : String) : List Char :=
  let cs := s.toList
  match style s with
  | .plain => cs
  | .single =>
    '\'' :: shifted indent false ((cs.flatMap fun c => if c == '\'' then [c, c] else [c]) ++ ['\''])
  | .double => '"' :: cs.flatMap (fun c => (doubleQuotedChar c).toList) ++ ['"']
  | .literal => (literalMark cs).toList ++ '\n' :: shifted indent true cs

/-! ## Blocks -/

/-- Ends a line, unless a break ends it. -/
def ended (cs : List Char) : List Char := if cs.getLast?.any isBreak then cs else cs ++ ['\n']

/-- Starts a line at a column, when there is anything to write. -/
def atColumn (column : Nat) (cs : List Char) : List Char :=
  if cs.isEmpty then cs else List.replicate column ' ' ++ cs

mutual

/-- The lines of a tree at a column. The first line has no indent, so that it can stand after
something else. -/
def writeTree (column : Nat) : Json → List Char
  | .str s => ended (writeText column s)
  | .arr [] => "[]\n".toList
  | .obj [] => "\x7b\x7d\n".toList
  | .arr items => writeItems column items
  | .obj entries => writeEntries column entries
  | j => ended j.leafText.toList

/-- The lines of the items of a list. -/
def writeItems (column : Nat) : List Json → List Char
  | [] => []
  | x :: xs => '-' :: ' ' :: writeTree (column + 2) x ++ atColumn column (writeItems column xs)

/-- The lines of the entries of a record. A list stands under its key without an indent, a
record with one. -/
def writeEntries (column : Nat) : List (String × Json) → List Char
  | [] => []
  | (k, x) :: xs =>
    k.toList ++ ':' :: (match x with
      | .arr (_ :: _) => '\n' :: atColumn column (writeTree column x)
      | .obj (_ :: _) => '\n' :: atColumn (column + 2) (writeTree (column + 2) x)
      | _ => ' ' :: writeTree (column + 2) x) ++ atColumn column (writeEntries column xs)

end

/-- The text of a tree whose keys are plain words. -/
def write (tree : Json) : String := String.ofList (writeTree 0 tree)

end WireSchema.Yaml
