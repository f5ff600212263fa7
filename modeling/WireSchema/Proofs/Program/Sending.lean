-- Running size and marshal programs. A step works on places: fields of the struct that the
-- program belongs to, and temporaries of the loops around it. A size program counts bytes and a
-- marshal program writes them.
import WireSchema.Program.Basic
import WireSchema.Proofs.Wire.Form
import WireSchema.Proofs.Wire.Slot

namespace WireSchema

open Outcome

/-! ## The machine -/

/-- Why a program stops before its end. -/
inductive Halt where
  /-- A container has not the length that the program asks for. -/
  | wrongLength (expected : UInt32) (found : Nat)
  /-- A place holds nothing that the step can work on. -/
  | misfit
  /-- Structs stand inside each other too deep. -/
  | tooDeep

/-- The bytes that were counted and those that were written. -/
structure Sent where
  size : Nat
  bytes : List UInt8

/-- Nothing was counted or written. -/
def Sent.nothing : Sent := ⟨0, []⟩

instance : Append Sent := ⟨fun a b => ⟨a.size + b.size, a.bytes ++ b.bytes⟩⟩

/-- The programs of a struct that send its values. -/
inductive Part where
  | size | marshal

/-- The program of a part. -/
def StructProgram.ops (s : StructProgram) : Part → List Op
  | .size => s.size
  | .marshal => s.marshal

/-- A way to run the programs of embedded structs. -/
abbrev OnNested := Part → String → Value → Except Halt Sent

/-- What a program works on: the struct's value with the layouts of its fields, and the
temporaries of the loops around the step, the innermost first. -/
structure Frame where
  layouts : List (String × Layout)
  self : Value
  temps : List (String × Slot)

namespace Frame

/-- The value at a place, with the layout that the place is declared to have. -/
def get (fr : Frame) : Place → Except Halt Slot
  | .field name =>
    match fr.layouts.lookup name, fr.self.field? name with
    | some l, some v => .ok (l, v)
    | _, _ => .error .misfit
  | .temp name =>
    match fr.temps.lookup name with
    | some slot => .ok slot
    | none => .error .misfit

/-- The frame inside a loop that gives a temporary its value. -/
def bind (fr : Frame) (name : String) (slot : Slot) : Frame :=
  { fr with temps := (name, slot) :: fr.temps }

end Frame

/-- The layout of the elements of an array. -/
def Layout.elem? : Layout → Option Layout
  | .fixedArray _ elem | .dynamicArray elem => some elem
  | _ => none

/-- The number of elements of a container. -/
def Value.count : Value → Except Halt Nat
  | .array xs => .ok xs.length
  | .map es => .ok es.length
  | _ => .error .misfit

/-- A block of exactly so many bytes. -/
def Bytes.block (len : Nat) (bs : List UInt8) : List UInt8 :=
  bs.take len ++ List.replicate (len - bs.length) 0

/-- A block behind its length. -/
def Bytes.counted (bs : List UInt8) : List UInt8 := Bytes.little countWidth bs.length ++ bs

/-- The bytes that a term adds to the size. -/
def SizeTerm.measure (nested : OnNested) (fr : Frame) : SizeTerm → Except Halt Nat
  | .const bytes => .ok bytes.toNat
  | .utf8Len place => do
    match ← fr.get place with
    | (_, .string s) => return (Text.bytes s).length
    | _ => throw .misfit
  | .byteLen place => do
    match ← fr.get place with
    | (_, .bytes bs) => return bs.length
    | _ => throw .misfit
  | .countTimes place width => do
    let slot ← fr.get place
    return (← slot.2.count) * width.toNat
  | .optional place width => do
    match ← fr.get place with
    | (_, .null) => return 0
    | _ => return width.toNat
  | .nested place => do
    match ← fr.get place with
    | (.embedded type, v) => return (← nested .size type v).size
    | _ => throw .misfit

/-- The bytes of a scalar that a step writes. -/
def Scalar.written (scalar : Scalar) (v : Value) : Except Halt (List UInt8) :=
  (scalar.bytes v).mapError fun _ => .misfit

/-- Sends parts one after the other. -/
def sendEach {α : Type} (send : α → Except Halt Sent) : List α → Except Halt Sent
  | [] => .ok .nothing
  | x :: xs => do return (← send x) ++ (← sendEach send xs)

namespace Op

mutual

/-- Runs a step of a size or marshal program. -/
def send (nested : OnNested) (fr : Frame) : Op → Except Halt Sent
  | .addSize term => do return ⟨← term.measure nested fr, []⟩
  | .writeScalar scalar place => do
    let slot ← fr.get place
    return ⟨0, ← scalar.written slot.2⟩
  | .writeNullable scalar place => do
    match ← fr.get place with
    | (_, .null) => return ⟨0, [0]⟩
    | (_, v) => return ⟨0, 1 :: (← scalar.written v)⟩
  | .writeString place => do
    match ← fr.get place with
    | (_, .string s) => return ⟨0, Bytes.counted (Text.bytes s)⟩
    | _ => throw .misfit
  | .writeBytes place len => do
    match ← fr.get place with
    | (_, .bytes bs) =>
      match len with
      | none => return ⟨0, Bytes.counted bs⟩
      | some len => return ⟨0, Bytes.block len.toNat bs⟩
    | _ => throw .misfit
  | .writeCount place => do
    let slot ← fr.get place
    return ⟨0, Bytes.little countWidth (← slot.2.count)⟩
  | .checkLen place len => do
    let slot ← fr.get place
    let found ← slot.2.count
    if found = len.toNat then return .nothing else throw (.wrongLength len found)
  | .marshalNested place => do
    match ← fr.get place with
    | (.embedded type, v) => nested .marshal type v
    | _ => throw .misfit
  | .forEach place item body => do
    let slot ← fr.get place
    match slot.1.elem?, slot.2 with
    | some elem, .array xs =>
      sendEach (fun x => sendAll nested (fr.bind item (elem, x)) body) xs
    | _, _ => throw .misfit
  | .forEachEntry place k v body => do
    match ← fr.get place with
    | (.map key value, .map es) =>
      sendEach (fun e => sendAll nested ((fr.bind k (key, e.1)).bind v (value, e.2)) body) es
    | _ => throw .misfit
  | _ => .error .misfit

/-- Runs the steps of a size or marshal program in order. -/
def sendAll (nested : OnNested) (fr : Frame) : List Op → Except Halt Sent
  | [] => .ok .nothing
  | op :: ops => do return (← op.send nested fr) ++ (← sendAll nested fr ops)

end

end Op

/-- Runs the size or marshal program of a struct on a value, with structs inside each other down
to the given depth. -/
def DocumentProgram.send (p : DocumentProgram) : Nat → OnNested
  | 0, _, _, _ => .error .tooDeep
  | depth + 1, part, type, v =>
    match p.get? type with
    | none => .error .misfit
    | some s =>
      let layouts := s.fields.map fun f => (f.name, f.layout)
      Op.sendAll (p.send depth) ⟨layouts, v, []⟩ (s.ops part)

/-! ## Sending in parts -/

/-- What a part makes of bytes: it counts them or writes them. -/
def Part.sent : Part → List UInt8 → Sent
  | .size, bs => ⟨bs.length, []⟩
  | .marshal, bs => ⟨0, bs⟩

namespace Sent

theorem append_def (a b : Sent) : a ++ b = ⟨a.size + b.size, a.bytes ++ b.bytes⟩ := rfl

@[simp]
theorem append_nothing (a : Sent) : a ++ nothing = a := by
  simp [append_def, nothing]

@[simp]
theorem nothing_append (a : Sent) : nothing ++ a = a := by
  simp [append_def, nothing]

theorem append_assoc (a b c : Sent) : a ++ b ++ c = a ++ (b ++ c) := by
  simp [append_def, Nat.add_assoc]

end Sent

theorem Part.sent_append (part : Part) (as bs : List UInt8) :
    part.sent (as ++ bs) = part.sent as ++ part.sent bs := by
  cases part <;> simp [Part.sent, Sent.append_def]

theorem Part.sent_nil (part : Part) : part.sent [] = .nothing := by
  cases part <;> rfl

/-- Parts that are each sent as their forms are together sent as all the forms. -/
theorem sendEach_of_forms {α : Type} {part : Part} {send : α → Except Halt Sent}
    {form : α → List UInt8} {xs : List α} (h : ∀ x ∈ xs, send x = .ok (part.sent (form x))) :
    sendEach send xs = .ok (part.sent (xs.flatMap form)) := by
  induction xs with
  | nil => rw [List.flatMap_nil, part.sent_nil, sendEach]
  | cons x xs ih =>
    have hx := h x (List.mem_cons_self ..)
    have hxs := ih fun y hy => h y (List.mem_cons_of_mem x hy)
    rw [sendEach, hx, hxs, List.flatMap_cons, part.sent_append]
    rfl

namespace Frame

theorem get_bind (fr : Frame) (name : String) (slot : Slot) :
    (fr.bind name slot).get (.temp name) = .ok slot := by
  simp [get, bind]

theorem get_bind_of_ne (fr : Frame) {name other : String} (h : name ≠ other) (slot : Slot) :
    (fr.bind other slot).get (.temp name) = fr.get (.temp name) := by
  simp [get, bind, List.lookup_cons, beq_false_of_ne h]

end Frame

/-- The temporaries of keys and of values have different names. -/
theorem key_ne_value (m n : Nat) : "key" ++ toString m ≠ "val" ++ toString n := by
  intro h
  have hlist := congrArg String.toList h
  simp at hlist

namespace Op

variable {nested : OnNested} {fr : Frame} {op : Op} {ops more : List Op} {a b : Sent}

theorem sendAll_cons (hop : op.send nested fr = .ok a) (hops : sendAll nested fr ops = .ok b) :
    sendAll nested fr (op :: ops) = .ok (a ++ b) := by
  rw [sendAll, hop, hops]
  rfl

theorem sendAll_one (hop : op.send nested fr = .ok a) : sendAll nested fr [op] = .ok a := by
  have h := sendAll_cons hop (show sendAll nested fr [] = .ok .nothing from rfl)
  rwa [Sent.append_nothing] at h

theorem sendAll_append (hops : sendAll nested fr ops = .ok a)
    (hmore : sendAll nested fr more = .ok b) : sendAll nested fr (ops ++ more) = .ok (a ++ b) := by
  induction ops generalizing a with
  | nil =>
    cases hops
    rw [List.nil_append, hmore, Sent.nothing_append]
  | cons op ops ih =>
    rw [sendAll] at hops
    obtain ⟨c, hc, hops⟩ := bind_eq_ok.1 hops
    obtain ⟨e, he, hops⟩ := bind_eq_ok.1 hops
    cases hops
    rw [List.cons_append, Sent.append_assoc]
    exact sendAll_cons hc (ih he)

/-- A loop over elements sends what its body sends for each of them. -/
theorem send_forEach {part : Part} {place : Place} {l elem : Layout} {xs : List Value}
    {d : DocumentLayout} {item : String} {body : List Op}
    (hplace : fr.get place = .ok (l, .array xs)) (hl : l.elem? = some elem)
    (h : ∀ x ∈ xs, ∀ fr : Frame, fr.get (.temp item) = .ok (elem, x) →
      sendAll nested fr body = .ok (part.sent (x.form d elem))) :
    send nested fr (.forEach place item body) =
      .ok (part.sent (xs.flatMap (·.form d elem))) := by
  simp only [send, hplace, ok_bind, hl]
  exact sendEach_of_forms fun x hx => h x hx _ (fr.get_bind item (elem, x))

/-- A loop over entries sends what its steps send for the key and for the value of each. -/
theorem send_forEachEntry {d : DocumentLayout} {part : Part} {place : Place} {key value : Layout}
    {es : List (Value × Value)} {n : Nat} {keyOps valueOps : List Op}
    (hplace : fr.get place = .ok (.map key value, .map es))
    (hkey : ∀ e ∈ es, ∀ fr : Frame, fr.get (.temp ("key" ++ toString n)) = .ok (key, e.1) →
      sendAll nested fr keyOps = .ok (part.sent (e.1.form d key)))
    (hvalue : ∀ e ∈ es, ∀ fr : Frame,
      fr.get (.temp ("val" ++ toString (n + 1))) = .ok (value, e.2) →
        sendAll nested fr valueOps = .ok (part.sent (e.2.form d value))) :
    send nested fr (.forEachEntry place ("key" ++ toString n) ("val" ++ toString (n + 1))
      (keyOps ++ valueOps)) =
        .ok (part.sent (es.flatMap fun e => e.1.form d key ++ e.2.form d value)) := by
  simp only [send, hplace, ok_bind]
  refine sendEach_of_forms fun e he => ?_
  have hk := fr.get_bind ("key" ++ toString n) (key, e.1)
  rw [← Frame.get_bind_of_ne _ (key_ne_value n (n + 1)) (value, e.2)] at hk
  have hv := (fr.bind ("key" ++ toString n) (key, e.1)).get_bind ("val" ++ toString (n + 1))
    (value, e.2)
  rw [part.sent_append]
  exact sendAll_append (hkey e he _ hk) (hvalue e he _ hv)

end Op

end WireSchema
