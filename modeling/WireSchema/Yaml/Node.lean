-- YAML as a tree of nodes. Aliases stay in the tree, as numbers of the nodes that they stand
-- for, so a node may hold an alias of itself.
import WireSchema.Yaml.Token

namespace WireSchema

/-- A YAML text as a tree. -/
inductive Yaml where
  | scalar (text : String) (form : Yaml.ScalarForm) (tag : Option Yaml.Tag)
  | seq (items : List Yaml)
  | map (entries : List (Yaml × Yaml))
  /-- The node that has the number. -/
  | alias (number : Nat)

namespace Yaml

/-- The node where nothing is written. -/
def empty : Yaml := .scalar "" .plain none

mutual

/-- The number of marks that a tree is made of: one for a scalar or an alias, and for a
collection one at its start and one at its end. -/
def size : Yaml → Nat
  | .seq items => sizeItems items + 2
  | .map entries => sizeEntries entries + 2
  | _ => 1

/-- The size of all items. -/
def sizeItems : List Yaml → Nat
  | [] => 0
  | x :: xs => x.size + sizeItems xs

/-- The size of all keys and values. -/
def sizeEntries : List (Yaml × Yaml) → Nat
  | [] => 0
  | (k, x) :: xs => k.size + x.size + sizeEntries xs

end

/-! ## Anchors -/

/-- The names of nodes. A name gets as its number how many names there were before it, so a
name that is given again gets a new number, which the next new name may share. -/
structure Anchors where
  /-- The names and their numbers. -/
  numbers : List (String × Nat)
  /-- The numbers of named nodes, each with the place of the node in the order of their starts,
  the latest first. -/
  starts : List (Nat × Nat)
  /-- The named nodes by their places. -/
  nodes : List (Nat × Yaml)

namespace Anchors

/-- No names. -/
def empty : Anchors := ⟨[], [], []⟩

/-- Names the node that starts here, and gives its place. -/
def start (a : Anchors) (name : String) : Anchors × Nat :=
  let place := a.starts.length
  (⟨(name, a.numbers.length) :: a.numbers.filter (·.1 != name),
    (a.numbers.length, place) :: a.starts, a.nodes⟩, place)

/-- Remembers the node of a place. -/
def define (a : Anchors) (place : Nat) (node : Yaml) : Anchors :=
  { a with nodes := (place, node) :: a.nodes }

/-- The node that a number stands for: of those that have it, the one that starts last. -/
def target? (a : Anchors) (number : Nat) : Option Yaml :=
  (a.starts.lookup number).bind fun place => a.nodes.lookup place

end Anchors

/-- A part of the tree, the tokens after it, and the anchors so far. -/
structure Parsed (α : Type) where
  value : α
  rest : List Token
  anchors : Anchors

/-- Tokens after which a block entry has no node of its own. -/
def endsBlockNode : List Token → Bool
  | .key :: _ | .value :: _ | .blockEnd :: _ => true
  | _ => false

/-- The anchor and the tag of a node, in either order. -/
def properties : List Token → Option String × Option Tag × List Token
  | .anchor a :: .tag t :: rest => (some a, some t, rest)
  | .tag t :: .anchor a :: rest => (some a, some t, rest)
  | .anchor a :: rest => (some a, none, rest)
  | .tag t :: rest => (none, some t, rest)
  | rest => (none, none, rest)

mutual

/-- Parses a node. Blocks may stand in block context only, and a sequence without an indent
of its own only after a key or a colon. -/
def node? (block indentless : Bool) : Nat → List Token → Anchors → Option (Parsed Yaml)
  | 0, _, _ => none
  | fuel + 1, ts, anchors =>
    match ts with
    | .alias a :: rest => (anchors.numbers.lookup a).map (⟨.alias ·, rest, anchors⟩)
    | ts =>
      let (name, tag, ts) := properties ts
      let (anchors, place) := match name with
        | some a => let (anchors, place) := anchors.start a; (anchors, some place)
        | none => (anchors, none)
      let nothing : Option (Parsed Yaml) :=
        if name.isSome || tag.isSome then some ⟨.scalar "" .plain tag, ts, anchors⟩ else none
      let content : Option (Parsed Yaml) :=
        match ts with
        | .scalar text form :: rest => some ⟨.scalar text form tag, rest, anchors⟩
        | .sequenceOpen :: rest => flowItems? fuel rest anchors [] true
        | .mappingOpen :: rest => flowEntries? fuel rest anchors [] true
        | .blockSequence :: rest => if block then blockItems? fuel rest anchors [] else nothing
        | .blockMapping :: rest => if block then blockEntries? fuel rest anchors [] else nothing
        | .blockEntry :: _ => if indentless then looseItems? fuel ts anchors [] else nothing
        | _ => nothing
      match content, place with
      | some p, some place => some { p with anchors := p.anchors.define place p.value }
      | content, _ => content

/-- Parses the items of a block sequence, after those that were read, latest first. -/
def blockItems? : Nat → List Token → Anchors → List Yaml → Option (Parsed Yaml)
  | 0, _, _, _ => none
  | fuel + 1, ts, anchors, read =>
    match ts with
    | .blockEnd :: rest => some ⟨.seq read.reverse, rest, anchors⟩
    | .blockEntry :: rest =>
      match rest with
      | .blockEntry :: _ | .blockEnd :: _ => blockItems? fuel rest anchors (empty :: read)
      | rest =>
        match node? true false fuel rest anchors with
        | some p => blockItems? fuel p.rest p.anchors (p.value :: read)
        | none => none
    | _ => none

/-- Parses the items of a sequence without an indent of its own. -/
def looseItems? : Nat → List Token → Anchors → List Yaml → Option (Parsed Yaml)
  | 0, _, _, _ => none
  | fuel + 1, ts, anchors, read =>
    match ts with
    | .blockEntry :: rest =>
      match rest with
      | .blockEntry :: _ | .key :: _ | .value :: _ | .blockEnd :: _ =>
        looseItems? fuel rest anchors (empty :: read)
      | rest =>
        match node? true false fuel rest anchors with
        | some p => looseItems? fuel p.rest p.anchors (p.value :: read)
        | none => none
    | ts => some ⟨.seq read.reverse, ts, anchors⟩

/-- Parses the entries of a block mapping. -/
def blockEntries? : Nat → List Token → Anchors → List (Yaml × Yaml) → Option (Parsed Yaml)
  | 0, _, _, _ => none
  | fuel + 1, ts, anchors, read =>
    match ts with
    | .blockEnd :: rest => some ⟨.map read.reverse, rest, anchors⟩
    | .key :: rest =>
      let key : Option (Parsed Yaml) := if endsBlockNode rest then some ⟨empty, rest, anchors⟩
        else node? true true fuel rest anchors
      match key with
      | none => none
      | some k =>
        let value : Option (Parsed Yaml) := match k.rest with
          | .value :: rest => if endsBlockNode rest then some ⟨empty, rest, k.anchors⟩
            else node? true true fuel rest k.anchors
          | rest => some ⟨empty, rest, k.anchors⟩
        match value with
        | none => none
        | some v => blockEntries? fuel v.rest v.anchors ((k.value, v.value) :: read)
    | _ => none

/-- Parses the value after a key in a flow collection: nothing unless a colon follows. -/
def flowValue? : Nat → List Token → Anchors → Option (Parsed Yaml)
  | 0, _, _ => none
  | fuel + 1, ts, anchors =>
    match ts with
    | .value :: rest =>
      match rest with
      | .flowEntry :: _ | .sequenceClose :: _ | .mappingClose :: _ => some ⟨empty, rest, anchors⟩
      | rest => node? false false fuel rest anchors
    | ts => some ⟨empty, ts, anchors⟩

/-- Parses the items of a flow sequence. An item with a key is a mapping of one entry. When
nothing stands after the mark of a key, the token after it goes with the mark. -/
def flowItems? : Nat → List Token → Anchors → List Yaml → Bool → Option (Parsed Yaml)
  | 0, _, _, _, _ => none
  | fuel + 1, ts, anchors, read, first =>
    let item (ts : List Token) : Option (Parsed Yaml) :=
      match ts with
      | .sequenceClose :: rest => some ⟨.seq read.reverse, rest, anchors⟩
      | .key :: rest =>
        let key : Option (Parsed Yaml) := match rest with
          | .value :: rest | .flowEntry :: rest | .sequenceClose :: rest =>
            some ⟨empty, rest, anchors⟩
          | rest => node? false false fuel rest anchors
        match key with
        | none => none
        | some k =>
          match flowValue? fuel k.rest k.anchors with
          | none => none
          | some v => flowItems? fuel v.rest v.anchors (.map [(k.value, v.value)] :: read) false
      | ts =>
        match node? false false fuel ts anchors with
        | none => none
        | some p => flowItems? fuel p.rest p.anchors (p.value :: read) false
    match ts with
    | .sequenceClose :: _ => item ts
    | .flowEntry :: rest => if first then item ts else item rest
    | ts => if first then item ts else none

/-- Parses the entries of a flow mapping. A node without a colon is a key of nothing. -/
def flowEntries? : Nat → List Token → Anchors → List (Yaml × Yaml) → Bool → Option (Parsed Yaml)
  | 0, _, _, _, _ => none
  | fuel + 1, ts, anchors, read, first =>
    let entry (ts : List Token) : Option (Parsed Yaml) :=
      match ts with
      | .mappingClose :: rest => some ⟨.map read.reverse, rest, anchors⟩
      | .key :: rest =>
        let key : Option (Parsed Yaml) := match rest with
          | .value :: _ | .flowEntry :: _ | .mappingClose :: _ => some ⟨empty, rest, anchors⟩
          | rest => node? false false fuel rest anchors
        match key with
        | none => none
        | some k =>
          match flowValue? fuel k.rest k.anchors with
          | none => none
          | some v => flowEntries? fuel v.rest v.anchors ((k.value, v.value) :: read) false
      | ts =>
        match node? false false fuel ts anchors with
        | none => none
        | some k => flowEntries? fuel k.rest k.anchors ((k.value, empty) :: read) false
    match ts with
    | .mappingClose :: _ => entry ts
    | .flowEntry :: rest => if first then entry ts else entry rest
    | ts => if first then entry ts else none

end

/-- Leaves out marks of a document's end. -/
def skipEnds : List Token → List Token
  | .documentEnd :: rest => skipEnds rest
  | ts => ts

/-- The content of a document, nothing when the next mark follows at once. -/
def content? (ts : List Token) : Option (Parsed Yaml) :=
  match ts with
  | [] => some ⟨empty, [], .empty⟩
  | .directive :: _ | .documentStart :: _ | .documentEnd :: _ => some ⟨empty, ts, .empty⟩
  | ts => node? true false (4 * ts.length + 4) ts .empty

/-- The tokens of a document after its directives and its start. Directives need a start after
them. -/
def afterStart? (ts : List Token) : Option (List Token) :=
  match ts.dropWhile (· == .directive) with
  | .documentStart :: rest => some rest
  | rest => if rest.length == ts.length then some ts else none

/-- The tree of a text and the nodes that have names. -/
structure Tree where
  root : Yaml
  anchors : Anchors

/-- Reads a text that holds one document. -/
def parse? (s : String) : Option Tree := do
  let p ← content? (← afterStart? (← tokens? s).toList)
  -- nothing but marks of the end may follow
  if (skipEnds p.rest).isEmpty then some ⟨p.value, p.anchors⟩ else none

end Yaml

end WireSchema
