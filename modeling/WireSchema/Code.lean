-- Code as a tree of lines and blocks. The depth of a line comes from the tree alone,
-- whatever its characters are.
import WireSchema.Text.Blank

namespace WireSchema

/-- A piece of code. -/
inductive Code where
  | line (text : String)
  | blank
  /-- A header, a body one level deeper, and a line that closes it. -/
  | block (header : String) (body : List Code) (close : String)

namespace Code

/-- A block whose header ends with an opening brace. -/
def blockWithClose (header : String) (body : List Code) (close : String) : Code :=
  .block (header ++ " \x7b") body close

/-- A block between braces. -/
def braces (header : String) (body : List Code) : Code := blockWithClose header body "\x7d"

/-- The pieces of all groups, with one blank line between groups that are not empty. -/
def separated : List (List Code) → List Code
  | [] => []
  | g :: gs =>
    match g, separated gs with
    | [], rest => rest
    | group, [] => group
    | group, rest => group ++ .blank :: rest

/-- A line without the return at its end. -/
def dropReturn (line : List Char) : List Char :=
  if line.getLast? == some '\r' then line.dropLast else line

/-- The lines of a text. What follows the last line end is a line unless it is empty. -/
def linesOf (text : String) : List String :=
  let parts := text.toList.splitOn '\n'
  ((parts.dropLast.map dropReturn) ++ (parts.getLast?.toList.filter (! ·.isEmpty))).map
    String.ofList

/-- The lines of a text as they stand. A line of white space is blank. -/
def verbatim (text : String) : List Code :=
  (linesOf text).map fun line => if Text.allBlank line then .blank else .line line

/-- A line at a depth. An empty line has no indent. -/
def lineText (unit : String) (depth : Nat) (text : String) : String :=
  (if text.isEmpty then "" else String.join (List.replicate depth unit) ++ text) ++ "\n"

mutual

/-- The text of a piece at a depth. -/
def text (unit : String) (depth : Nat) : Code → String
  | .line s => lineText unit depth s
  | .blank => "\n"
  | .block header body close =>
    lineText unit depth header ++ textList unit (depth + 1) body ++ lineText unit depth close

/-- The text of pieces at a depth. -/
def textList (unit : String) (depth : Nat) : List Code → String
  | [] => ""
  | c :: cs => text unit depth c ++ textList unit depth cs

end

/-- The text of pieces, indented by the unit at each level. -/
def render (unit : String) (nodes : List Code) : String := textList unit 0 nodes

end Code

end WireSchema
