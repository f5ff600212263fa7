-- Scalars of a YAML text: plain, between single or double quotes, and block scalars.
import WireSchema.Text.Hex
import WireSchema.Yaml.Cursor

namespace WireSchema.Yaml

/-- How a scalar is written. -/
inductive ScalarForm where
  | plain
  /-- Between quotes of either kind. -/
  | quoted
  /-- As a block that keeps its line ends. -/
  | literal
  /-- As a block that joins its lines. -/
  | folded
  deriving DecidableEq

/-- A scalar that was read, and where the text goes on. -/
structure ScalarRead where
  text : String
  stop : Cursor
  /-- A line ended after the scalar. -/
  broken : Bool

/-- The text of characters that were read, latest first. -/
def ofRead (read : List Char) : String := String.ofList read.reverse

/-! ## Plain scalars -/

/-- One of the characters that shape flow collections. -/
def isFlowMark (c : Char) : Bool := c == ',' || c == '[' || c == ']' || c == '\x7b' || c == '\x7d'

/-- A colon that cannot stand in a plain scalar of a flow collection. -/
def strayColon (flow : Bool) : List Char → Bool
  | ':' :: c :: _ => flow && (isFlowMark c || c == '?')
  | _ => false

/-- The character ends a plain scalar. -/
def endsPlain (flow : Bool) : List Char → Bool
  | ':' :: rest => blankNext rest
  | c :: _ => flow && isFlowMark c
  | [] => true

/-- Reads a plain scalar whose further lines stand at least at `indent`. -/
def plain? (flow : Bool) (indent : Int) : Nat → Cursor → List Char → Gap → Option ScalarRead
  | 0, _, _, _ => none
  | fuel + 1, p, read, gap =>
    match p.rest with
    | [] => some ⟨ofRead read, p, gap.broken⟩
    | c :: _ =>
      if isBlank c then
        if gap.broken && p.col < indent && c == '\t' then none
        else plain? flow indent fuel (p.skip 1) read (gap.addBlank c)
      else if isBreak c then plain? flow indent fuel p.skipBreak read (gap.addBreak c)
      else
        let outside := (!flow && gap.broken && p.col < indent) || p.atDocumentMark ||
          (c == '#' && !gap.isEmpty)
        if !outside && strayColon flow p.rest then none
        else if outside || endsPlain flow p.rest then some ⟨ofRead read, p, gap.broken⟩
        else plain? flow indent fuel (p.skip 1) (c :: (gap.folded ++ read)) .empty

/-! ## Quoted scalars -/

/-- The number of hexadecimal digits. -/
def hexNumber? (ds : List Char) : Option Nat :=
  ds.foldl (fun n d => do return 16 * (← n) + (← Hex.digit? d)) (some 0)

/-- The character of a numbered escape with `count` digits. -/
def numberedEscape? (count : Nat) (cs : List Char) : Option Char := do
  if cs.length < count then none
  let n ← hexNumber? (cs.take count)
  if (0xd800 ≤ n && n < 0xe000) || 0x110000 ≤ n then none else some (Char.ofNat n)

/-- The character of an escape, and how many characters spell it after the backslash. -/
def escape? : List Char → Option (Char × Nat)
  | '0' :: _ => some ('\x00', 1)
  | 'a' :: _ => some ('\x07', 1)
  | 'b' :: _ => some ('\x08', 1)
  | 't' :: _ => some ('\t', 1)
  | '\t' :: _ => some ('\t', 1)
  | 'n' :: _ => some ('\n', 1)
  | 'v' :: _ => some ('\x0b', 1)
  | 'f' :: _ => some ('\x0c', 1)
  | 'r' :: _ => some ('\r', 1)
  | 'e' :: _ => some ('\x1b', 1)
  | ' ' :: _ => some (' ', 1)
  | '"' :: _ => some ('"', 1)
  | '/' :: _ => some ('/', 1)
  | '\\' :: _ => some ('\\', 1)
  | 'N' :: _ => some (Char.ofNat 0x85, 1)
  | '_' :: _ => some (Char.ofNat 0xa0, 1)
  | 'L' :: _ => some (Char.ofNat 0x2028, 1)
  | 'P' :: _ => some (Char.ofNat 0x2029, 1)
  | 'x' :: rest => (numberedEscape? 2 rest).map (·, 3)
  | 'u' :: rest => (numberedEscape? 4 rest).map (·, 5)
  | 'U' :: rest => (numberedEscape? 8 rest).map (·, 9)
  | _ => none

/-- Reads a scalar after its opening quote. A quote inside single quotes is written twice. -/
def quoted? (double : Bool) : Nat → Cursor → List Char → Gap → Option ScalarRead
  | 0, _, _, _ => none
  | fuel + 1, p, read, gap =>
    if p.atDocumentMark then none
    else match p.rest with
    | [] => none
    | c :: rest =>
      if isBlank c then quoted? double fuel (p.skip 1) read (gap.addBlank c)
      else if isBreak c then quoted? double fuel p.skipBreak read (gap.addBreak c)
      else
        let read := gap.folded ++ read
        if c == (if double then '"' else '\'') then
          if !double && rest.head? == some '\'' then
            quoted? double fuel (p.skip 2) ('\'' :: read) .empty
          else some ⟨ofRead read, p.skip 1, false⟩
        else if double && c == '\\' then
          if !rest.isEmpty && breakNext rest then
            quoted? double fuel (p.skip 1).skipBreak read .escapedBreak
          else match escape? rest with
            | some (e, count) => quoted? double fuel (p.skip (count + 1)) (e :: read) .empty
            | none => none
        else quoted? double fuel (p.skip 1) (c :: read) .empty

/-! ## Block scalars -/

/-- What a block scalar keeps of the line ends at its end. -/
inductive Chomping where
  | strip | clip | keep
  deriving DecidableEq

/-- The indicators after the mark of a block scalar: chomping and indent, in either order. -/
def header? (cs : List Char) : Option (Chomping × Nat × Nat) :=
  let chomp : Char → Option Chomping
    | '+' => some .keep
    | '-' => some .strip
    | _ => none
  match cs with
  | [] => some (.clip, 0, 0)
  | c :: rest =>
    match chomp c with
    | some k =>
      match rest with
      | d :: _ => if d == '0' then none
        else if d.isDigit then some (k, d.toNat - 48, 2) else some (k, 0, 1)
      | [] => some (k, 0, 1)
    | none =>
      if c == '0' then none
      else if c.isDigit then
        match rest.head?.bind chomp with
        | some k => some (k, c.toNat - 48, 2)
        | none => some (.clip, c.toNat - 48, 1)
      else some (.clip, 0, 0)

/-- Moves past indentation and empty lines. An indent of zero is not known yet. Gives the
line ends, latest first, and the deepest column seen. -/
def blockBreaks? (indent : Nat) : Nat → Cursor → List Char → Nat → Option (Cursor × List Char × Nat)
  | 0, _, _, _ => none
  | fuel + 1, p, breaks, deepest =>
    let spaces := (p.rest.takeWhile (· == ' ')).length
    let p := p.skip (if indent == 0 then spaces else min spaces (indent - p.col))
    let deepest := max deepest p.col
    match p.rest with
    | [] => some (p, breaks, deepest)
    | c :: _ =>
      if (indent == 0 || p.col < indent) && c == '\t' then none
      else if isBreak c then blockBreaks? indent fuel p.skipBreak (breakChar c :: breaks) deepest
      else some (p, breaks, deepest)

/-- Reads the lines of a block scalar. -/
def blockLines? (literal : Bool) (chomping : Chomping) (indent : Nat) :
    Nat → Cursor → List Char → Option Char → List Char → Bool → Option ScalarRead
  | 0, _, _, _, _, _ => none
  | fuel + 1, p, read, first, later, blankBefore =>
    if p.col == indent && !p.rest.isEmpty then
      let blankHere := p.rest.head?.any isBlank
      let joined :=
        if !literal && first == some '\n' && !blankBefore && !blankHere then
          if later.isEmpty then [' '] else []
        else first.toList
      let line := p.rest.takeWhile (!isBreak ·)
      let read := line.reverse ++ later ++ joined ++ read
      let p := p.skip line.length
      let first := p.rest.head?.map breakChar
      match blockBreaks? indent fuel p.skipBreak [] 0 with
      | some (p, later, _) => blockLines? literal chomping indent fuel p read first later blankHere
      | none => none
    else
      let ending := match chomping with
        | .strip => []
        | .clip => first.toList
        | .keep => later ++ first.toList
      some ⟨ofRead (ending ++ read), p, false⟩

/-- Reads a block scalar after its mark, inside a block at `outer`. The fuel bounds the lines. -/
def block? (literal : Bool) (outer : Int) (fuel : Nat) (p : Cursor) : Option ScalarRead := do
  let (chomping, step, count) ← header? p.rest
  let p := (p.skip count).skipWhile isBlank
  let p := if p.rest.head? == some '#' then p.skipWhile (!isBreak ·) else p
  if !breakNext p.rest then none
  let p := if p.rest.isEmpty then p else p.skipBreak
  let known := if step == 0 then 0 else (max outer 0).toNat + step
  let (p, breaks, deepest) ← blockBreaks? known fuel p [] 0
  let indent := if known == 0 then max (max deepest (outer + 1).toNat) 1 else known
  blockLines? literal chomping indent fuel p [] none breaks false

end WireSchema.Yaml
