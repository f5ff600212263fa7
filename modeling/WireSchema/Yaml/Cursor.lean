-- A place in a YAML text, and the characters that its grammar tells apart.

namespace WireSchema.Yaml

/-- What is left of a text, and where that starts. -/
structure Cursor where
  rest : List Char
  line : Nat
  /-- Characters since the start of the line. -/
  col : Nat
  /-- Bytes since the start of the text. -/
  index : Nat

/-- A space or a tab. -/
def isBlank (c : Char) : Bool := c == ' ' || c == '\t'

/-- A character that ends a line. -/
def isBreak (c : Char) : Bool :=
  c == '\n' || c == '\r' || c.toNat == 0x85 || c.toNat == 0x2028 || c.toNat == 0x2029

/-- A character that a text may hold. -/
def isAllowed (c : Char) : Bool :=
  let n := c.toNat
  n == 9 || n == 10 || n == 13 || (0x20 ≤ n && n ≤ 0x7e) || n == 0x85 ||
    (0xa0 ≤ n && n ≤ 0xfffd) || 0x10000 ≤ n

/-- A blank, a line end, or the end of the text comes next. -/
def blankNext : List Char → Bool
  | [] => true
  | c :: _ => isBlank c || isBreak c

/-- A line end or the end of the text comes next. -/
def breakNext : List Char → Bool
  | [] => true
  | c :: _ => isBreak c

/-- The mark that may stand in front of a text or of a line. -/
def isByteOrderMark (c : Char) : Bool := c.toNat == 0xfeff

/-- The number of bytes of characters. -/
def byteCount (cs : List Char) : Nat := cs.foldl (fun n c => n + c.utf8Size) 0

namespace Cursor

/-- The start of a text. -/
def start (s : String) : Cursor := ⟨s.toList, 0, 0, 0⟩

/-- Moves past characters of one line. -/
def skip (p : Cursor) (count : Nat) : Cursor :=
  ⟨p.rest.drop count, p.line, p.col + count, p.index + byteCount (p.rest.take count)⟩

/-- Moves past a line end; a carriage return and a line feed are one. -/
def skipBreak (p : Cursor) : Cursor :=
  match p.rest with
  | '\r' :: '\n' :: rest => ⟨rest, p.line + 1, 0, p.index + 2⟩
  | c :: rest => ⟨rest, p.line + 1, 0, p.index + c.utf8Size⟩
  | [] => ⟨[], p.line + 1, 0, p.index⟩

/-- Moves past the characters of one line that pass the test. -/
def skipWhile (p : Cursor) (test : Char → Bool) : Cursor :=
  p.skip (p.rest.takeWhile test).length

/-- The mark of a document's start or end stands here. -/
def atDocumentMark (p : Cursor) : Bool :=
  p.col == 0 && match p.rest with
    | '-' :: '-' :: '-' :: rest => blankNext rest
    | '.' :: '.' :: '.' :: rest => blankNext rest
    | _ => false

end Cursor

/-- The character that a line end is read as. -/
def breakChar (c : Char) : Char :=
  if c.toNat == 0x2028 || c.toNat == 0x2029 then c else '\n'

/-- Blanks and line ends between two words of a scalar. Lists hold the latest first. -/
structure Gap where
  /-- Blanks of the line, as long as it has not ended. -/
  blanks : List Char
  /-- The line has ended. -/
  broken : Bool
  /-- The first line end, unless it was escaped. -/
  first : Option Char
  /-- The line ends after it. -/
  later : List Char

namespace Gap

/-- Nothing between the words. -/
def empty : Gap := ⟨[], false, none, []⟩

/-- The line has ended in an escaped line end. -/
def escapedBreak : Gap := ⟨[], true, none, []⟩

/-- One more blank; it does not count once the line has ended. -/
def addBlank (g : Gap) (c : Char) : Gap :=
  if g.broken then g else { g with blanks := c :: g.blanks }

/-- One more line end. -/
def addBreak (g : Gap) (c : Char) : Gap :=
  if g.broken then { g with later := breakChar c :: g.later }
  else ⟨[], true, some (breakChar c), []⟩

/-- What the gap reads as, latest first: a single line end is a space, and of more the first
is dropped. -/
def folded (g : Gap) : List Char :=
  if !g.broken then g.blanks
  else match g.first with
    | some '\n' => if g.later.isEmpty then [' '] else g.later
    | some c => g.later ++ [c]
    | none => g.later

/-- There is nothing between the words. -/
def isEmpty (g : Gap) : Bool := !g.broken && g.blanks.isEmpty

end Gap

end WireSchema.Yaml
