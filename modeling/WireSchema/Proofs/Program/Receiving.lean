-- Running unmarshal programs. A step reads from the place in the buffer where the last one
-- stopped, and leaves what it read in a field of the struct or in a temporary. How a language
-- compares the keys of its maps, and what a fresh temporary holds, is up to the language.
import WireSchema.Program.Basic
import WireSchema.Proofs.Outcome
import WireSchema.Proofs.Value.Keys
import WireSchema.Wire.Read

namespace WireSchema

open Outcome Wire

/-! ## The machine -/

/-- Why a program refuses its input, or cannot go on. -/
inductive Refusal where
  | outOfBounds (offset need len : Nat)
  | countLimit (count : Nat)
  | invalidUtf8 (offset : Nat)
  /-- A place holds nothing that the step can work on. -/
  | misfit
  /-- Structs stand inside each other too deep. -/
  | tooDeep
  deriving DecidableEq

/-- What the language that runs the programs decides: the value of a fresh temporary, and which
keys of a map are the same. -/
structure Runtime where
  initial : Descriptor → Value
  sameKey : Value → Value → Bool

/-- What a place holds: a count or an index, or a value. -/
inductive Cell where
  | number (n : Nat)
  | value (v : Value)

/-- The state of a running program: what its places hold, and where in the buffer it is. -/
structure Store where
  slots : Place → Option Cell
  input : Input

namespace Store

/-- The store with something in a place. -/
def set (st : Store) (place : Place) (cell : Cell) : Store :=
  { st with slots := fun q => if q = place then some cell else st.slots q }

/-- The store further in the buffer. -/
def move (st : Store) (input : Input) : Store := { st with input }

/-- The number in a place. -/
def number (st : Store) (place : Place) : Except Refusal Nat :=
  match st.slots place with
  | some (.number n) => .ok n
  | _ => .error .misfit

/-- The value in a place. -/
def value (st : Store) (place : Place) : Except Refusal Value :=
  match st.slots place with
  | some (.value v) => .ok v
  | _ => .error .misfit

/-- How many times a loop runs. -/
def count (st : Store) : Count → Except Refusal Nat
  | .fixed len => .ok len.toNat
  | .var name => st.number (.temp name)

end Store

/-- Room for a block in the rest of the buffer. -/
def Wire.Input.probe (input : Input) (need : Nat) : Except Refusal Unit :=
  if input.offset + need ≤ input.len then .ok ()
  else .error (.outOfBounds input.offset need input.len)

/-- Takes a block from the buffer. -/
def Wire.Input.pull (input : Input) (need : Nat) : Except Refusal (List UInt8 × Input) := do
  input.probe need
  return (input.rest.take need, input.advance need)

/-- Takes a count from the buffer. -/
def Wire.Input.pullCount (input : Input) : Except Refusal (Nat × Input) := do
  let (bs, input) ← input.pull countWidth
  return (Bytes.ofLittle bs, input)

/-- Takes a block behind its length from the buffer. -/
def Wire.Input.pullCounted (input : Input) : Except Refusal (List UInt8 × Input) := do
  let (n, input) ← input.pullCount
  input.pull n

/-- Takes a scalar from the buffer. -/
def Wire.Input.pullScalar (input : Input) (scalar : Scalar) : Except Refusal (Value × Input) := do
  let (bs, input) ← input.pull scalar.width
  return (scalar.ofBits (Bytes.ofLittle bs), input)

/-- Takes the count of elements that take at least `width` bytes each. -/
def Wire.Input.pullElementCount (input : Input) (width : UInt64) :
    Except Refusal (Nat × Input) := do
  let (n, input) ← input.pullCount
  if width = 0 then
    if n > maxEmptyElements then throw (.countLimit n)
  else
    input.probe (Width.saturate (width.toNat * n)).toNat
  return (n, input)

/-- Runs something so many times, with an index that goes up. -/
def runTimes (run : Nat → Store → Except Refusal Store) :
    Nat → Nat → Store → Except Refusal Store
  | 0, _, st => .ok st
  | n + 1, i, st => do runTimes run n (i + 1) (← run i st)

/-- A way to read embedded structs. -/
abbrev ReadNested := String → Input → Except Refusal (Value × Input)

namespace Op

variable (rt : Runtime) (nested : ReadNested)

mutual

/-- Runs a step of an unmarshal program. -/
def receive (op : Op) (st : Store) : Except Refusal Store :=
  match op with
  | .readScalar scalar place => do
    let (v, input) ← st.input.pullScalar scalar
    return (st.set place (.value v)).move input
  | .readNullable scalar place => do
    let (flag, input) ← st.input.pull flagWidth
    if Bytes.ofLittle flag = 0 then return (st.set place (.value .null)).move input
    else
      let (v, input) ← input.pullScalar scalar
      return (st.set place (.value v)).move input
  | .readString place => do
    let (bs, input) ← st.input.pullCounted
    match Text.ofBytes? bs with
    | some s => return (st.set place (.value (.string s))).move input
    | none => throw (.invalidUtf8 st.input.offset)
  | .readBytes place len => do
    let (bs, input) ←
      match len with
      | none => st.input.pullCounted
      | some len => st.input.pull len.toNat
    return (st.set place (.value (.bytes bs))).move input
  | .readCount var width => do
    let (n, input) ← st.input.pullElementCount width
    return (st.set (.temp var) (.number n)).move input
  | .unmarshalNested place type =>
    match type.name? with
    | some name => do
      let (v, input) ← nested name st.input
      return (st.set place (.value v)).move input
    | none => throw .misfit
  | .declareLocal var type => return st.set (.temp var) (.value (rt.initial type))
  | .newList var elem (.fixed len) =>
    return st.set (.temp var) (.value (.array (List.replicate len.toNat (rt.initial elem))))
  | .newList var _ (.var _) => return st.set (.temp var) (.value (.array []))
  | .newMap var _ _ => return st.set (.temp var) (.value (.map []))
  | .append list item index => do
    let x ← st.value (.temp item)
    match ← st.value (.temp list), index with
    | .array xs, none => return st.set (.temp list) (.value (.array (xs ++ [x])))
    | .array xs, some index =>
      let i ← st.number (.temp index)
      if i < xs.length then return st.set (.temp list) (.value (.array (xs.set i x)))
      else throw .misfit
    | _, _ => throw .misfit
  | .insert map key value => do
    let k ← st.value (.temp key)
    let v ← st.value (.temp value)
    match ← st.value (.temp map) with
    | .map es => return st.set (.temp map) (.value (.map (insertEntry rt.sameKey k v es)))
    | _ => throw .misfit
  | .assign place var => do return st.set place (.value (← st.value (.temp var)))
  | .loop count index body => do
    runTimes (fun i st => receiveAll body (st.set (.temp index) (.number i)))
      (← st.count count) 0 st
  | _ => .error .misfit

/-- Runs the steps of an unmarshal program in order. -/
def receiveAll (ops : List Op) (st : Store) : Except Refusal Store :=
  match ops with
  | [] => .ok st
  | op :: ops => do receiveAll ops (← op.receive st)

end

end Op

/-- The struct that a program leaves in its fields. -/
def StructProgram.result (s : StructProgram) (st : Store) : Except Refusal Value := do
  return .struct (← s.fields.mapM fun f => return (f.name, ← st.value (.field f.name)))

/-- Runs the unmarshal program of a struct at a place of a buffer, with structs inside each other
down to the given depth. -/
def DocumentProgram.receive (p : DocumentProgram) (rt : Runtime) : Nat → ReadNested
  | 0, _, _ => .error .tooDeep
  | depth + 1, type, input =>
    match p.get? type with
    | none => .error .misfit
    | some s => do
      let st ← Op.receiveAll rt (p.receive rt depth) s.unmarshal ⟨fun _ => none, input⟩
      return (← s.result st, st.input)

/-- Runs the unmarshal program of a struct at an offset of a buffer, and tells the offset behind
what it read. -/
def DocumentProgram.unmarshal (p : DocumentProgram) (rt : Runtime) (depth : Nat)
    (type : String) (buf : List UInt8) (offset : Nat) : Except Refusal (Value × Nat) := do
  let (v, input) ← p.receive rt depth type (.ofBuffer buf offset)
  return (v, input.offset)

/-! ## Reading with two readers -/

/-- The refusal of a program that stands for an error of the codec. -/
def WireError.refusal? : WireError → Option Refusal
  | .outOfBounds _ offset need len => some (.outOfBounds offset need len)
  | .countLimit _ count => some (.countLimit count)
  | .invalidUtf8 _ offset => some (.invalidUtf8 offset)
  | _ => none

/-- A program follows the codec: where the codec succeeds so does the program, with a related
outcome, and where the codec refuses the input the program does, for the same reason. -/
def Follows {α β : Type} (codec : Except WireError α) (program : Except Refusal β)
    (R : α → β → Prop) : Prop :=
  match codec with
  | .ok a => ∃ b, program = .ok b ∧ R a b
  | .error e => ∀ r, e.refusal? = some r → program = .error r

namespace Follows

variable {α β γ δ : Type} {codec : Except WireError α} {program : Except Refusal β}
  {R : α → β → Prop} {S : γ → δ → Prop}

theorem bind {f : α → Except WireError γ} {g : β → Except Refusal δ}
    (h : Follows codec program R) (hnext : ∀ a b, R a b → Follows (f a) (g b) S) :
    Follows (codec >>= f) (program >>= g) S := by
  cases codec with
  | ok a =>
    obtain ⟨b, rfl, hab⟩ := h
    exact hnext a b hab
  | error e =>
    intro r hr
    rw [h r hr]
    rfl

/-- Steps of the program that the codec has no part in. -/
theorem andThen {g : β → Except Refusal δ} {S : α → δ → Prop} (h : Follows codec program R)
    (hnext : ∀ a b, R a b → ∃ c, g b = .ok c ∧ S a c) : Follows codec (program >>= g) S := by
  have hbind := h.bind (f := Except.ok) hnext
  cases codec <;> exact hbind

/-- Steps of the codec that the program has no part in. -/
theorem giving {f : α → Except WireError γ} {S : γ → β → Prop} (h : Follows codec program R)
    (hnext : ∀ a b, R a b → ∃ c, f a = .ok c ∧ S c b) : Follows (codec >>= f) program S := by
  cases codec with
  | ok a =>
    obtain ⟨b, rfl, hab⟩ := h
    obtain ⟨c, hc, hS⟩ := hnext a b hab
    rw [ok_bind, hc]
    exact ⟨b, rfl, hS⟩
  | error e => exact h

theorem mono {R' : α → β → Prop} (h : Follows codec program R) (hR : ∀ a b, R a b → R' a b) :
    Follows codec program R' := by
  cases codec with
  | ok a =>
    obtain ⟨b, hb, hab⟩ := h
    exact ⟨b, hb, hR a b hab⟩
  | error e => exact h

end Follows

namespace Wire.Input

theorem follows_probe (input : Input) (need : Nat) (path : Path) :
    Follows (input.require need path) (input.probe need) Eq := by
  unfold require probe
  split
  · exact ⟨(), rfl, rfl⟩
  · rintro r ⟨⟩
    rfl

theorem follows_pull (input : Input) (need : Nat) (path : Path) :
    Follows (input.take need path) (input.pull need) Eq := by
  refine (input.follows_probe need path).bind ?_
  rintro _ _ rfl
  exact ⟨_, rfl, rfl⟩

theorem follows_pullScalar (input : Input) (scalar : Scalar) (path : Path) :
    Follows (readScalar scalar path input) (input.pullScalar scalar)
      fun r r' => r = r' ∧ ∃ bits, r.1 = scalar.ofBits bits := by
  refine (input.follows_pull scalar.width path).bind ?_
  rintro ⟨bs, next⟩ _ rfl
  exact ⟨_, rfl, rfl, _, rfl⟩

theorem follows_pullCount (input : Input) (path : Path) :
    Follows (readCount path input) input.pullCount Eq := by
  refine (input.follows_pull countWidth path).bind ?_
  rintro ⟨bs, next⟩ _ rfl
  exact ⟨_, rfl, rfl⟩

theorem follows_pullCounted (input : Input) (path : Path) :
    Follows (readCounted path input) input.pullCounted Eq := by
  refine (input.follows_pullCount path).bind ?_
  rintro ⟨n, next⟩ _ rfl
  exact next.follows_pull n path

theorem follows_pullElementCount (input : Input) (width : UInt64) (path : Path) :
    Follows (readElementCount width path input) (input.pullElementCount width) Eq := by
  refine (input.follows_pullCount path).bind ?_
  rintro ⟨n, next⟩ _ rfl
  by_cases hzero : width = 0
  · by_cases hmany : n > maxEmptyElements
    · simp only [hzero, hmany, if_true]
      rintro r ⟨⟩
      rfl
    · simp only [hzero, hmany, if_true, if_false]
      exact ⟨_, rfl, rfl⟩
  · simp only [hzero, if_false]
    refine (next.follows_probe _ path).bind ?_
    rintro _ _ rfl
    exact ⟨_, rfl, rfl⟩

end Wire.Input

/-! ## Names of temporaries -/

/-- The number at the end of a name. -/
def Text.endNumber (name : String) : Nat :=
  Nat.ofDigitChars 10 (name.toList.reverse.takeWhile Char.isDigit).reverse 0

/-- The number behind a stem that ends in no digit. -/
theorem Text.endNumber_append {stem : String}
    (hstem : stem.toList.reverse.takeWhile Char.isDigit = []) (n : Nat) :
    endNumber (stem ++ toString n) = n := by
  have hdigits : ∀ c ∈ (toString n).toList.reverse, c.isDigit = true := by
    intro c hc
    rw [List.mem_reverse, Nat.toString_eq_repr, Nat.toList_repr] at hc
    exact Nat.isDigit_of_mem_toDigits (by decide) (by decide) hc
  rw [endNumber, String.toList_append, List.reverse_append, List.takeWhile_append_of_pos hdigits,
    hstem, List.append_nil, List.reverse_reverse, Nat.toString_eq_repr, Nat.toList_repr,
    Nat.ofDigitChars_ten_toDigits]

/-- A place that is there before the temporaries numbered from `n` on. -/
def Place.Older (n : Nat) : Place → Prop
  | .field _ => True
  | .temp name => Text.endNumber name < n

theorem Place.older_temp {stem : String}
    (hstem : stem.toList.reverse.takeWhile Char.isDigit = []) {m n : Nat} (h : m < n) :
    (Place.temp (stem ++ toString m)).Older n := by
  rwa [Older, Text.endNumber_append hstem]

theorem Place.Older.mono {place : Place} {m n : Nat} (h : place.Older m) (hle : m ≤ n) :
    place.Older n := by
  cases place with
  | field name => trivial
  | temp name => exact Nat.lt_of_lt_of_le h hle

theorem Place.temp_ne {a b : String} (h : Text.endNumber a ≠ Text.endNumber b) :
    Place.temp a ≠ .temp b := by
  rintro ⟨⟩
  exact h rfl

/-- A temporary is none of the places that are older than its number. -/
theorem Place.Older.ne_temp {place : Place} {n : Nat} {name : String} (h : place.Older n)
    (hname : n ≤ Text.endNumber name) : place ≠ .temp name := by
  rintro rfl
  exact Nat.lt_irrefl _ (Nat.lt_of_lt_of_le h hname)

/-! ## Stores -/

namespace Store

variable {st : Store} {place q : Place} {cell : Cell} {input : Input}

@[simp]
theorem slots_set : (st.set place cell).slots place = some cell := by
  simp [set]

theorem slots_set_of_ne (h : q ≠ place) : (st.set place cell).slots q = st.slots q := by
  simp [set, h]

@[simp]
theorem slots_move : (st.move input).slots = st.slots := rfl

theorem value_eq_ok {v : Value} (h : st.slots place = some (.value v)) :
    st.value place = .ok v := by
  rw [value, h]

theorem number_eq_ok {n : Nat} (h : st.slots place = some (.number n)) :
    st.number place = .ok n := by
  rw [number, h]

/-- The places that are older than a number hold what they did, but for one. -/
def Keeps (n : Nat) (place : Place) (st st' : Store) : Prop :=
  ∀ q : Place, q.Older n → q ≠ place → st'.slots q = st.slots q

namespace Keeps

variable {m n : Nat} {st st' st'' : Store}

theorem refl (n : Nat) (place : Place) (st : Store) : Keeps n place st st := fun _ _ _ => rfl

/-- What keeps all the places older than a later number keeps those older than an earlier one. -/
theorem trans_of_older (h : Keeps n place st st') (hle : n ≤ m)
    (holder : ∀ q : Place, q.Older m → st''.slots q = st'.slots q) : Keeps n place st st'' := by
  intro q hq hne
  rw [holder q (hq.mono hle)]
  exact h q hq hne

theorem set_self (h : Keeps n place st st') : Keeps n place st (st'.set place cell) := by
  intro q hq hne
  rw [slots_set_of_ne hne]
  exact h q hq hne

theorem set_temp (h : Keeps n place st st') {name : String} (hname : n ≤ Text.endNumber name) :
    Keeps n place st (st'.set (.temp name) cell) := by
  intro q hq hne
  rw [slots_set_of_ne (hq.ne_temp hname)]
  exact h q hq hne

end Keeps

end Store

/-! ## Steps in order -/

namespace Op

variable {rt : Runtime} {nested : ReadNested}

theorem receiveAll_one (op : Op) (st : Store) :
    receiveAll rt nested [op] st = op.receive rt nested st := by
  rw [receiveAll]
  cases op.receive rt nested st <;> rfl

theorem receiveAll_append (ops more : List Op) (st : Store) :
    receiveAll rt nested (ops ++ more) st =
      (receiveAll rt nested ops st >>= receiveAll rt nested more) := by
  induction ops generalizing st with
  | nil => rfl
  | cons op ops ih =>
    rw [List.cons_append, receiveAll, receiveAll]
    cases op.receive rt nested st with
    | error r => rfl
    | ok next => exact ih next

end Op

/-- A loop follows the codec through a list of parts when its body does so for each, with an
invariant on the parts so far. -/
theorem follows_runTimes {α : Type} {read : Nat → Input → Except WireError (α × Input)}
    {run : Nat → Store → Except Refusal Store} {inv : List α → Store → Prop} {total : Nat}
    (h : ∀ seen st, seen.length < total → inv seen st →
      Follows (read seen.length st.input) (run seen.length st)
        fun r st' => st'.input = r.2 ∧ inv (seen ++ [r.1]) st')
    {st : Store} (hinv : inv [] st) :
    Follows (readMany read total 0 [] st.input) (runTimes run total 0 st)
      fun r st' => st'.input = r.2 ∧ r.1.length = total ∧ inv r.1 st' := by
  -- The parts read so far go up by one and those to come go down, so the total stays.
  suffices hall : ∀ n seen st, seen.length + n = total → inv seen.reverse st →
      Follows (readMany read n seen.length seen st.input) (runTimes run n seen.length st)
        fun r st' => st'.input = r.2 ∧ r.1.length = total ∧ inv r.1 st' from
    hall total [] st (Nat.zero_add total) hinv
  intro n
  induction n with
  | zero =>
    intro seen st htotal hinv
    exact ⟨st, rfl, rfl, by rwa [List.length_reverse], hinv⟩
  | succ n ih =>
    intro seen st htotal hinv
    have hstep := h seen.reverse st (by rw [List.length_reverse]; omega) hinv
    rw [List.length_reverse] at hstep
    have hread : readMany read (n + 1) seen.length seen st.input =
        (read seen.length st.input >>= fun r =>
          readMany read n (seen.length + 1) (r.1 :: seen) r.2) := by
      rw [readMany]
      cases read seen.length st.input <;> rfl
    rw [hread, runTimes]
    refine hstep.bind ?_
    rintro ⟨x, next⟩ st' ⟨rfl, hinv'⟩
    refine ih (x :: seen) st' ?_ ?_
    · rw [List.length_cons]
      omega
    · rwa [List.reverse_cons]

end WireSchema
