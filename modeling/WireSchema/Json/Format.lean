-- JSON as a format of records. A record is an object, or an array of its fields in order
-- of declaration. A choice is its name, or an object with the name and nothing.
import WireSchema.Json.Reader
import WireSchema.Record

namespace WireSchema.Json

/-- A tree and how many more levels of it may be entered. -/
structure Node where
  tree : Json
  room : Nat

/-- The value of a whole number that is not negative. -/
def natural? : Json → Option Nat
  | .int n => if 0 ≤ n then some n.toNat else none
  | _ => none

/-- The text of a string. -/
def text? : Json → Option String
  | .str s => some s
  | _ => none

/-- The items of an array that may be entered. -/
def Node.items? : Node → Option (List Node)
  | ⟨.arr items, room + 1⟩ => some (items.map (⟨·, room⟩))
  | _ => none

/-- The entries of a record that may be entered. -/
def Node.entries? (fields : List String) : Node → Option (List (String × Node))
  | ⟨.obj entries, room + 1⟩ => some (entries.map fun e => (e.1, ⟨e.2, room⟩))
  | ⟨.arr items, room + 1⟩ =>
    if items.length ≤ fields.length then some (fields.zip (items.map (⟨·, room⟩))) else none
  | _ => none

/-- The tree stands for nothing. -/
def isNull : Json → Bool
  | .null => true
  | _ => false

/-- The name of a choice in a text that is read as it is decoded. -/
def Node.choice? : Node → Option String
  | ⟨.str s, _⟩ => some s
  | ⟨.obj [(s, .null)], _ + 1⟩ => some s
  | _ => none

/-- The name of a choice in a tree that was read before: an empty object is nothing too. -/
def Node.heldChoice? : Node → Option String
  | ⟨.str s, _⟩ => some s
  | ⟨.obj [(s, .null)], _ + 1⟩ => some s
  | ⟨.obj [(s, .obj [])], _ + 1⟩ => some s
  | _ => none

/-- Nodes of a text that is read as it is decoded. -/
def format : Format Option Node where
  text? n := n.tree.text?
  natural? n := n.tree.natural?
  choice? := Node.choice?
  present? n := some (if n.tree.isNull then none else some n)
  items? := Node.items?
  entries? := Node.entries?

/-- Nodes of a tree that was read before it is decoded. -/
def heldFormat : Format Option Node := { format with choice? := Node.heldChoice? }

/-- Decodes a text. What the decoder does not look at may be anything well formed. -/
def decodeText? {α : Type} (decode : Node → Option α) (s : String) : Option α :=
  (parse? s).bind fun tree => decode ⟨tree, maxDepth⟩

/-- Decodes a tree, however deep. -/
def decodeTree? {α : Type} (decode : Node → Option α) (tree : Json) : Option α :=
  decode ⟨tree, tree.depth⟩

/-! ## Tagged records -/

/-- The other fields of a tagged record: by name, or in order. -/
inductive Body where
  | named (entries : List (String × Json))
  | ordered (items : List Json)

/-- The variant that a tag names. A tag that was read before may be the variant's number. -/
def variant? (variants : List String) (held : Bool) : Json → Option String
  | .str s => if variants.contains s then some s else none
  | .int n => if held && 0 ≤ n then variants[n.toNat]? else none
  | _ => none

/-- Splits a tagged record into its variant and the rest. The tag may stand anywhere in an
object and is the first item of an array. -/
def tagged? (tag : String) (variants : List String) (held : Bool) : Json → Option (String × Body)
  | .obj entries => do
    let v ← variant? variants held (← Record.required? entries tag)
    return (v, .named (entries.filter (·.1 != tag)))
  | .arr (first :: rest) => do
    let v ← variant? variants held first
    return (v, .ordered rest)
  | _ => none

/-- The fields of a variant by name. -/
def Body.entries? (fields : List String) : Body → Option (List (String × Json))
  | .named entries => some entries
  | .ordered items => if items.length ≤ fields.length then some (fields.zip items) else none

/-- A variant without fields: other names do not matter, other items do. -/
def Body.isBare : Body → Bool
  | .named _ => true
  | .ordered items => items.isEmpty

/-- Decodes a part of a held tree with a decoder of nodes. -/
def held? {α : Type} (decode : Node → Option α) (tree : Json) : Option α :=
  decodeTree? decode tree

/-- The tree of a node whose whole content is wanted. -/
def Node.whole? (n : Node) : Option Json :=
  if n.tree.isSound && n.tree.depth ≤ n.room then some n.tree else none

end WireSchema.Json
