-- Decoding records from structured text. A format says what its nodes can stand for; the
-- decoders of the records are the same for every format. A format may keep a state of its own
-- while nodes are looked at, so the decoders work in any monad that can fail as options do.
import WireSchema.Number.Width

namespace WireSchema

/-- What the nodes of a format can stand for. -/
structure Format (m : Type → Type) (ν : Type) where
  /-- The text of a string. -/
  text? : ν → m String
  /-- The value of a whole number that is not negative. -/
  natural? : ν → m Nat
  /-- The name of a choice from a fixed list. -/
  choice? : ν → m String
  /-- The node itself, or nothing when it stands for a part that is left out. -/
  present? : ν → m (Option ν)
  /-- The items of a list. -/
  items? : ν → m (List ν)
  /-- The entries of a record with the given fields, in the order of the text. -/
  entries? : List String → ν → m (List (String × ν))

namespace Record

/-- The value of a field: missing is fine, twice is not. -/
def optional? {ν : Type} (entries : List (String × ν)) (field : String) : Option (Option ν) :=
  match entries.filter (·.1 == field) with
  | [] => some none
  | [(_, v)] => some (some v)
  | _ => none

/-- The value of a field that must be there once. -/
def required? {ν : Type} (entries : List (String × ν)) (field : String) : Option ν :=
  (optional? entries field).join

variable {m : Type → Type} [Monad m] [MonadLiftT Option m] {ν α : Type}

/-- The value when there is one. -/
def given? (a : Option α) : m α := monadLift a

/-- Decodes a field that must be there. -/
def field? (entries : List (String × ν)) (name : String) (decode : ν → m α) : m α := do
  decode (← given? (required? entries name))

/-- Decodes a field that has a value of its own when it is missing. -/
def fieldD? (entries : List (String × ν)) (name : String) (decode : ν → m α) (default : α) :
    m α := do
  match ← given? (optional? entries name) with
  | some v => decode v
  | none => return default

end Record

namespace Format

variable {m : Type → Type} [Monad m] [MonadLiftT Option m] {ν α : Type} (f : Format m ν)

/-- Decodes a part that may be left out. -/
def option? (decode : ν → m α) (node : ν) : m (Option α) := do
  match ← f.present? node with
  | some node => return some (← decode node)
  | none => return none

/-- Decodes a list. -/
def list? (decode : ν → m α) (node : ν) : m (List α) := do
  (← f.items? node).mapM decode

/-- Decodes a choice by its name. -/
def choose? (ofName? : String → Option α) (node : ν) : m α := do
  Record.given? (ofName? (← f.choice? node))

/-- Decodes a 32-bit number. -/
def word32? (node : ν) : m UInt32 := do
  let n ← f.natural? node
  Record.given? (if n < UInt32.size then some (UInt32.ofNat n) else none)

/-- Decodes a 64-bit number. -/
def word64? (node : ν) : m UInt64 := do
  Record.given? (Width.ofNat? (← f.natural? node))

end Format

end WireSchema
