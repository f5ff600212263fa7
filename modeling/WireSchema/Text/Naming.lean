-- Spellings of a name in generated code.
import WireSchema.Text.Case

namespace WireSchema.Text

/-- The name with its first character in upper case. -/
def title (name : String) : String :=
  match name.toList with
  | [] => ""
  | c :: cs => String.ofList (upperForm c ++ cs)

/-- The name with its first character in lower case. -/
def untitle (name : String) : String :=
  match name.toList with
  | [] => ""
  | c :: cs => String.ofList (lowerForm c ++ cs)

/-- A word starts at an upper-case character: after a lower-case character or a digit, and
where the last capital of a row starts a word. -/
def startsWord (before after : Option Char) : Bool :=
  match before with
  | none => false
  | some p =>
    if p == '_' then false
    else if isLower p || p.isDigit then true
    else isUpper p && after.any isLower

/-- The characters in lower case, with an underscore in front of each new word. -/
def snakeChars : Option Char → List Char → List Char
  | _, [] => []
  | before, c :: cs =>
    (if isUpper c then
      (if startsWord before cs.head? then ['_'] else []) ++ lowerForm c
    else [c]) ++ snakeChars (some c) cs

/-- The name in lower case, its words divided by underscores. -/
def snakeCase (name : String) : String := String.ofList (snakeChars none name.toList)

end WireSchema.Text
