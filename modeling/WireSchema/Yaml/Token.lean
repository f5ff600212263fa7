-- Tokens of a YAML text. Indentation opens and closes blocks; a colon after a node makes
-- that node a key, so its tokens are put in front of it once the colon is seen.
import WireSchema.Yaml.Scalar
import WireSchema.Yaml.Tag

namespace WireSchema.Yaml

/-- The tokens of the grammar. -/
inductive Token where
  | directive | documentStart | documentEnd
  | blockSequence | blockMapping | blockEnd
  | sequenceOpen | sequenceClose | mappingOpen | mappingClose
  | blockEntry | flowEntry | key | value
  | alias (name : String)
  | anchor (name : String)
  | tag (name : Tag)
  | scalar (text : String) (form : ScalarForm)
  deriving DecidableEq

/-- A node that a colon could still make a key. -/
structure PendingKey where
  required : Bool
  /-- The position of its first token. -/
  token : Nat
  line : Nat
  col : Nat
  index : Nat

/-- The state of the scanner. -/
structure Scanner where
  here : Cursor
  /-- The column of the open block, below zero when none is open. -/
  indent : Int
  /-- The columns of the blocks around it. -/
  outer : List Int
  /-- A key may start here. -/
  keyAllowed : Bool
  /-- The pending key of each open flow collection, the innermost first, then of the block. -/
  keys : List (Option PendingKey)
  tokens : Array Token
  directives : Directives

namespace Scanner

/-- The start of a text. -/
def start (s : String) : Scanner := ⟨.start s, -1, [], true, [none], #[], .empty⟩

/-- Inside a flow collection. -/
def inFlow (s : Scanner) : Bool :=
  match s.keys with
  | _ :: _ :: _ => true
  | _ => false

/-- Adds a token. -/
def emit (s : Scanner) (t : Token) : Scanner := { s with tokens := s.tokens.push t }

/-- Adds a token at a position. -/
def emitAt (s : Scanner) (i : Nat) (t : Token) : Scanner :=
  { s with tokens := s.tokens.insertIdxIfInBounds i t }

/-- Closes the blocks that are deeper than the column. -/
def unroll (s : Scanner) (column : Int) : Scanner :=
  if s.inFlow then s
  else
    let all := s.indent :: s.outer
    let closed := (all.takeWhile (column < ·)).length
    let left := all.drop closed
    { s with
      tokens := s.tokens ++ Array.replicate closed .blockEnd
      indent := left.head?.getD (-1)
      outer := left.tail }

/-- Opens a block at a column that is deeper than the open one. -/
def roll (s : Scanner) (column : Nat) (position : Option Nat) (t : Token) : Scanner :=
  if s.inFlow || (column : Int) ≤ s.indent then s
  else
    let s := { s with outer := s.indent :: s.outer, indent := column }
    match position with
    | some i => s.emitAt i t
    | none => s.emit t

/-- Gives up the pending key; one that had to be a key is an error. -/
def dropKey (s : Scanner) : Option Scanner :=
  match s.keys with
  | some k :: keys => if k.required then none else some { s with keys := none :: keys }
  | _ => some s

/-- Marks the node that starts here as a possible key. -/
def saveKey (s : Scanner) : Option Scanner :=
  if s.keyAllowed then
    s.dropKey.map fun s =>
      let k : PendingKey := ⟨!s.inFlow && s.indent == s.here.col, s.tokens.size, s.here.line,
        s.here.col, s.here.index⟩
      { s with keys := some k :: s.keys.tail }
  else some s

/-- Gives up the pending key when its line has ended or it is too long. -/
def expire (s : Scanner) : Option Scanner :=
  match s.keys with
  | some k :: _ =>
    if k.line < s.here.line || k.index + 1024 < s.here.index then s.dropKey else some s
  | _ => some s

/-- Moves past blanks, comments and line ends. -/
def skipToToken : Nat → Scanner → Scanner
  | 0, s => s
  | fuel + 1, s =>
    match s.here.rest with
    | [] => s
    | c :: _ =>
      if c == ' ' || (c == '\t' && (s.inFlow || !s.keyAllowed)) ||
          (isByteOrderMark c && s.here.col == 0) then
        skipToToken fuel { s with here := s.here.skip 1 }
      else if c == '#' then
        skipToToken fuel { s with here := s.here.skipWhile (!isBreak ·) }
      else if isBreak c then
        skipToToken fuel
          { s with here := s.here.skipBreak, keyAllowed := s.keyAllowed || !s.inFlow }
      else s

/-- Moves past characters and adds a token. -/
def take (s : Scanner) (count : Nat) (t : Token) : Scanner :=
  { s with here := s.here.skip count }.emit t

/-- The mark of a document's start or end. -/
def documentMark (s : Scanner) (t : Token) : Option Scanner :=
  (s.unroll (-1)).dropKey.map fun s => { s with keyAllowed := false }.take 3 t

/-- The start of a flow collection. -/
def openFlow (s : Scanner) (t : Token) : Option Scanner :=
  s.saveKey.map fun s => { s with keys := none :: s.keys, keyAllowed := true }.take 1 t

/-- The end of a flow collection. -/
def closeFlow (s : Scanner) (t : Token) : Option Scanner :=
  s.dropKey.map fun s =>
    { s with
      keys := if s.inFlow then s.keys.tail else s.keys
      keyAllowed := false }.take 1 t

/-- The comma between items of a flow collection. -/
def flowComma (s : Scanner) : Option Scanner :=
  s.dropKey.map fun s => { s with keyAllowed := true }.take 1 .flowEntry

/-- The dash before an item of a block sequence. -/
def dash (s : Scanner) : Option Scanner := do
  if !s.inFlow && !s.keyAllowed then none
  let s ← (s.roll s.here.col none .blockSequence).dropKey
  return { s with keyAllowed := true }.take 1 .blockEntry

/-- The question mark before a key. -/
def questionMark (s : Scanner) : Option Scanner := do
  if !s.inFlow && !s.keyAllowed then none
  let s ← (s.roll s.here.col none .blockMapping).dropKey
  return { s with keyAllowed := !s.inFlow }.take 1 .key

/-- The colon after a key. -/
def colon (s : Scanner) : Option Scanner :=
  match s.keys with
  | some k :: keys =>
    let s := { s with keys := none :: keys }.emitAt k.token .key
    let s := s.roll k.col (some k.token) .blockMapping
    some ({ s with keyAllowed := false }.take 1 .value)
  | _ =>
    if !s.inFlow && !s.keyAllowed then none
    else
      let s := s.roll s.here.col none .blockMapping
      some ({ s with keyAllowed := !s.inFlow }.take 1 .value)

/-- An anchor or an alias, from its mark on. -/
def name? (s : Scanner) (token : String → Token) : Option Scanner := do
  let s ← s.saveKey
  let name := (s.here.rest.drop 1).takeWhile isNameChar
  let after := s.here.rest.drop (name.length + 1)
  let ended := blankNext after ||
    after.head?.any fun c => "?:,]\x7d%@\x60".toList.contains c
  if name.isEmpty || !ended then none
  return { s with keyAllowed := false }.take (name.length + 1) (token (String.ofList name))

/-- A tag. -/
def tag? (s : Scanner) : Option Scanner := do
  let s ← s.saveKey
  let (tag, rest) ← s.directives.tag? s.here.rest
  if !(blankNext rest || (s.inFlow && rest.head? == some ',')) then none
  let count := s.here.rest.length - rest.length
  return { s with keyAllowed := false }.take count (.tag tag)

/-- A directive, which takes the rest of its line. -/
def directive? (s : Scanner) : Option Scanner := do
  let s ← (s.unroll (-1)).dropKey
  let (directives, rest) ← s.directives.read? (s.here.rest.drop 1)
  let here := (s.here.skip (s.here.rest.length - rest.length)).skipWhile isBlank
  let here := if here.rest.head? == some '#' then here.skipWhile (!isBreak ·) else here
  if !breakNext here.rest then none
  let here := if here.rest.isEmpty then here else here.skipBreak
  return { s.emit .directive with here, directives, keyAllowed := false }

/-- A plain scalar. -/
def plainScalar (s : Scanner) (fuel : Nat) : Option Scanner := do
  let s ← s.saveKey
  let r ← plain? s.inFlow (s.indent + 1) fuel s.here [] .empty
  return { s.emit (.scalar r.text .plain) with here := r.stop, keyAllowed := r.broken }

/-- A scalar between quotes. -/
def quotedScalar (s : Scanner) (fuel : Nat) (double : Bool) : Option Scanner := do
  let s ← s.saveKey
  let r ← quoted? double fuel (s.here.skip 1) [] .empty
  return { s.emit (.scalar r.text .quoted) with here := r.stop, keyAllowed := false }

/-- A block scalar. -/
def blockScalar (s : Scanner) (fuel : Nat) (literal : Bool) : Option Scanner := do
  let s ← s.dropKey
  let r ← block? literal s.indent fuel (s.here.skip 1)
  let form : ScalarForm := if literal then .literal else .folded
  return { s.emit (.scalar r.text form) with here := r.stop, keyAllowed := true }

/-- The character can start a plain scalar. -/
def startsPlain (s : Scanner) (c : Char) (rest : List Char) : Bool :=
  if c == '-' then !rest.isEmpty && !rest.head?.any isBlank
  else if c == '?' || c == ':' then !s.inFlow && !blankNext rest
  else !(isBlank c || ",[]\x7b\x7d#&*!|>'\"%@\x60".toList.contains c)

/-- Reads the next token; the text is not at its end. The fuel is more than the characters that
are left. -/
def token (s : Scanner) (fuel : Nat) (c : Char) (rest : List Char) : Option Scanner :=
  if s.here.atDocumentMark then s.documentMark (if c == '-' then .documentStart else .documentEnd)
  else if c == '%' && s.here.col == 0 then s.directive?
  else if c == '[' then s.openFlow .sequenceOpen
  else if c == '\x7b' then s.openFlow .mappingOpen
  else if c == ']' then s.closeFlow .sequenceClose
  else if c == '\x7d' then s.closeFlow .mappingClose
  else if c == ',' then s.flowComma
  else if c == '-' && blankNext rest then s.dash
  else if c == '?' && (s.inFlow || blankNext rest) then s.questionMark
  else if c == ':' && (s.inFlow || blankNext rest) then s.colon
  else if c == '*' then s.name? .alias
  else if c == '&' then s.name? .anchor
  else if c == '!' then s.tag?
  else if c == '|' && !s.inFlow then s.blockScalar fuel true
  else if c == '>' && !s.inFlow then s.blockScalar fuel false
  else if c == '\'' then s.quotedScalar fuel false
  else if c == '"' then s.quotedScalar fuel true
  else if s.startsPlain c rest then s.plainScalar fuel
  else none

/-- Reads tokens up to the end of the text. A token has at least one character, so the fuel
stays more than the characters that are left. -/
def run? : Nat → Scanner → Option (Array Token)
  | 0, _ => none
  | fuel + 1, s => do
    let s := skipToToken fuel s
    let s ← s.expire
    let s := s.unroll s.here.col
    match s.here.rest with
    | [] => return (← (s.unroll (-1)).dropKey).tokens
    | c :: rest => run? fuel (← s.token fuel c rest)

end Scanner

/-- The tokens of a text. -/
def tokens? (s : String) : Option (Array Token) :=
  if s.toList.all isAllowed then Scanner.run? (s.length + 2) (.start s) else none

end WireSchema.Yaml
