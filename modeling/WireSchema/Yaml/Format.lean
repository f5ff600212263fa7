-- YAML as a format of records. A scalar in a string slot is taken as it stands; what is not
-- written is an empty list or record. Aliases are followed where a decoder looks, and only so
-- often.
import WireSchema.Record
import WireSchema.Yaml.Node

namespace WireSchema.Yaml

/-- A tree and how many more levels of it may be entered. -/
structure Place where
  tree : Yaml
  room : Nat

/-- Looking at nodes. The state is how many more aliases may be followed. -/
abbrev Following := StateT Nat Option

/-- The place that an alias stands for, or the place itself. -/
def Place.follow (anchors : Anchors) (p : Place) : Following Place :=
  match p.tree with
  | .alias number => do
    match ← get with
    | 0 => failure
    | left + 1 => set left
    return ⟨← Record.given? (anchors.target? number), p.room⟩
  | _ => return p

/-! ## Scalars -/

/-- A word for nothing. -/
def isNull (s : String) : Bool := ["~", "null", "Null", "NULL"].contains s

/-- The number that digits of a base spell. -/
def ofDigits? (base : Nat) (ds : List Char) : Option Nat :=
  if ds.isEmpty then none
  else ds.foldl (fun n d => do
    let n ← n
    let d ← Hex.digit? d
    if d < base then some (base * n + d) else none) (some 0)

/-- The number that digits spell: decimal without leading zeros, or after a mark in base 16,
8 or 2. -/
def magnitude? : List Char → Option Nat
  | '0' :: 'x' :: ds => ofDigits? 16 ds
  | '0' :: 'o' :: ds => ofDigits? 8 ds
  | '0' :: 'b' :: ds => ofDigits? 2 ds
  | '0' :: _ :: _ => none
  | ds => ofDigits? 10 ds

/-- The number that digits spell, with or without a plus sign. -/
def number? : List Char → Option Nat
  | '+' :: ds => magnitude? ds
  | ds => magnitude? ds

/-- The text of a scalar. -/
def text? : Yaml → Option String
  | .scalar s _ _ => some s
  | _ => none

/-- The value of a whole number that is not negative. It is written plainly, or as a block with
the tag of numbers. -/
def natural? : Yaml → Option Nat
  | .scalar s form tag =>
    if form = .plain ∨ form = .literal ∧ tag = some Tag.int then number? s.toList else none
  | _ => none

/-- The name of a choice: an own tag of a node that stands for nothing, or the text of a scalar
without such a tag. -/
def choice? : Yaml → Option String
  | .scalar s form tag =>
    match tag.bind Tag.own? with
    | some name => if form = .plain ∧ (s = "" ∨ isNull s) then some name else none
    | none => some s
  | _ => none

/-- Whether the node stands for a part that is there. A plain scalar may say that it is not,
unless it has a tag that says more than that. -/
def isPresent? : Yaml → Option Bool
  | .scalar s .plain none => some (s != "" && !isNull s)
  | .scalar s .plain (some tag) =>
    if tag = Tag.null then if isNull s then some false else none else some true
  | _ => some true

/-! ## Collections -/

/-- The items of a list that may be entered. -/
def Place.items? : Place → Option (List Place)
  | ⟨.seq items, room + 1⟩ => some (items.map (⟨·, room⟩))
  | ⟨.scalar "" .plain _, _⟩ => some []
  | _ => none

/-- The keys and values of a record that may be entered. -/
def Place.pairs? : Place → Option (List (Place × Place))
  | ⟨.map entries, room + 1⟩ => some (entries.map fun e => (⟨e.1, room⟩, ⟨e.2, room⟩))
  | ⟨.scalar "" .plain _, _⟩ => some []
  | _ => none

/-! ## Decoding -/

/-- The deepest nesting that a reader follows. -/
def maxDepth : Nat := 128

/-- How often aliases may be followed for each mark of the text. -/
def maxRepetition : Nat := 100

section Format

variable (anchors : Anchors)

/-- What the node at a place stands for, by a reading of nodes. -/
def Place.reading {α : Type} (read? : Yaml → Option α) (p : Place) : Following α := do
  Record.given? (read? (← p.follow anchors).tree)

/-- Nodes of a YAML text. Every key of a record is a scalar. -/
def format : Format Following Place where
  text? := Place.reading anchors text?
  natural? := Place.reading anchors natural?
  choice? := Place.reading anchors choice?
  present? p := do
    let p ← p.follow anchors
    return if ← Record.given? p.tree.isPresent? then some p else none
  items? p := do Record.given? (← p.follow anchors).items?
  entries? _ p := do
    (← Record.given? (← p.follow anchors).pairs?).mapM fun e => do
      return (← e.1.reading anchors text?, e.2)

end Format

/-- Decodes a text. -/
def decodeText? {α : Type} (decode : Format Following Place → Place → Following α) (s : String) :
    Option α := do
  let tree ← parse? s
  (decode (format tree.anchors) ⟨tree.root, maxDepth⟩).run' (maxRepetition * tree.root.size)

end WireSchema.Yaml
