-- The form of a value on the wire: the bytes that its layout asks for, in order. Offsets,
-- depths, paths and errors have no part in it, so it says what every writer has to put out.
import WireSchema.Proofs.Number.Bytes
import WireSchema.Proofs.Outcome
import WireSchema.Wire.Codec

namespace WireSchema

open Outcome

/-! ## Scalars -/

namespace Scalar

/-- The bytes of a scalar. -/
def form (scalar : Scalar) (v : Value) : List UInt8 :=
  match scalar.bytes v with
  | .ok bs => bs
  | .error _ => []

/-- The bytes of a signed integer are those of the number that it is, which fits the width. -/
theorem signedBytes_eq_ok {width : Nat} {v : Value} {bs : List UInt8} :
    signedBytes width v = .ok bs ↔ ∃ n, integer v = .ok n ∧
      (-(2 ^ (8 * width - 1) : Nat) ≤ n ∧ n < (2 ^ (8 * width - 1) : Nat)) ∧
      bs = Bytes.little width (Bytes.wrap width n) := by
  unfold signedBytes
  rw [bind_eq_ok]
  refine exists_congr fun n => and_congr_right fun _ => ?_
  rw [guard_eq_ok, pure_eq_ok, eq_comm (a := bs)]

theorem unsignedBytes_eq_ok {width : Nat} {v : Value} {bs : List UInt8} :
    unsignedBytes width v = .ok bs ↔ ∃ n, integer v = .ok n ∧
      (0 ≤ n ∧ n < (2 ^ (8 * width) : Nat)) ∧ bs = Bytes.little width n.toNat := by
  unfold unsignedBytes
  rw [bind_eq_ok]
  refine exists_congr fun n => and_congr_right fun _ => ?_
  rw [guard_eq_ok, pure_eq_ok, eq_comm (a := bs)]

theorem length_bytes {scalar : Scalar} {v : Value} {bs : List UInt8}
    (h : scalar.bytes v = .ok bs) : bs.length = scalar.width := by
  cases scalar with
  | bool =>
    cases v with
    | bool b => cases h; rfl
    | _ => cases h
  | f32 | f64 =>
    obtain ⟨x, _, rfl⟩ := map_eq_ok.1 h
    exact Bytes.length_little ..
  | i8 | i16 | i32 | i64 =>
    obtain ⟨n, _, _, rfl⟩ := signedBytes_eq_ok.1 h
    exact Bytes.length_little ..
  | u8 | u16 | u32 | u64 =>
    obtain ⟨n, _, _, rfl⟩ := unsignedBytes_eq_ok.1 h
    exact Bytes.length_little ..

theorem form_eq {scalar : Scalar} {v : Value} {bs : List UInt8}
    (h : scalar.bytes v = .ok bs) : scalar.form v = bs := by
  unfold form
  rw [h]

end Scalar

/-! ## Values -/

/-- A count in front of what it counts. -/
def Wire.countForm (n : Nat) : List UInt8 := Bytes.little countWidth n

@[simp]
theorem Wire.length_countForm (n : Nat) : (countForm n).length = countWidth :=
  Bytes.length_little countWidth n

namespace Value

mutual

/-- The bytes of a value. A value that the layout has no place for has none. -/
def form (d : DocumentLayout) (v : Value) (l : Layout) : List UInt8 :=
  match l with
  | .fixed scalar => scalar.form v
  | .nullable scalar =>
    match v with
    | null => [0]
    | v => 1 :: scalar.form v
  | .string =>
    match v with
    | string s => Wire.countForm (Text.bytes s).length ++ Text.bytes s
    | _ => []
  | .fixedBytes _ =>
    match v with
    | bytes bs => bs
    | _ => []
  | .dynamicBytes =>
    match v with
    | bytes bs => Wire.countForm bs.length ++ bs
    | _ => []
  | .fixedArray _ elem =>
    match v with
    | array xs => formItems d xs elem
    | _ => []
  | .dynamicArray elem =>
    match v with
    | array xs => Wire.countForm xs.length ++ formItems d xs elem
    | _ => []
  | .map key value =>
    match v with
    | map es => Wire.countForm es.length ++ formEntries d es key value
    | _ => []
  | .embedded type =>
    match v with
    | struct fields =>
      match d.get? type with
      | some s => s.fields.flatMap fun f =>
        match (formFields d fields).lookup f.name with
        | some part => part f.layout
        | none => []
      | none => []
    | _ => []

/-- The bytes of elements one after the other. -/
def formItems (d : DocumentLayout) (xs : List Value) (elem : Layout) : List UInt8 :=
  match xs with
  | [] => []
  | x :: xs => x.form d elem ++ formItems d xs elem

/-- The bytes of entries one after the other, each key before its value. -/
def formEntries (d : DocumentLayout) (es : List (Value × Value)) (key value : Layout) :
    List UInt8 :=
  match es with
  | [] => []
  | (k, v) :: es => k.form d key ++ v.form d value ++ formEntries d es key value

/-- The bytes of each field, for the layout that the struct will give it. -/
def formFields (d : DocumentLayout) (fields : List (String × Value)) :
    List (String × (Layout → List UInt8)) :=
  match fields with
  | [] => []
  | (name, v) :: fields => (name, v.form d) :: formFields d fields

end

/-- The bytes of a struct's field. -/
def fieldForm (d : DocumentLayout) (v : Value) (f : FieldLayout) : List UInt8 :=
  match v.field? f.name with
  | some x => x.form d f.layout
  | none => []

theorem form_present {v : Value} (h : v ≠ null) (d : DocumentLayout) (scalar : Scalar) :
    v.form d (.nullable scalar) = 1 :: scalar.form v := by
  cases v with
  | null => exact absurd rfl h
  | _ => rfl

theorem formItems_eq (d : DocumentLayout) (xs : List Value) (elem : Layout) :
    formItems d xs elem = xs.flatMap (·.form d elem) := by
  induction xs with
  | nil => rfl
  | cons x xs ih => rw [formItems, ih, List.flatMap_cons]

theorem formEntries_eq (d : DocumentLayout) (es : List (Value × Value)) (key value : Layout) :
    formEntries d es key value = es.flatMap fun e => e.1.form d key ++ e.2.form d value := by
  induction es with
  | nil => rfl
  | cons e es ih => rw [formEntries, ih, List.flatMap_cons]

theorem lookup_formFields (d : DocumentLayout) (fields : List (String × Value)) (name : String) :
    (formFields d fields).lookup name = (fields.lookup name).map (·.form d) := by
  induction fields with
  | nil => rfl
  | cons f fields ih =>
    rw [formFields, List.lookup_cons, List.lookup_cons, ih]
    cases name == f.1 <;> rfl

/-- The bytes of a struct are those of its fields, in order of declaration. -/
theorem form_embedded {d : DocumentLayout} {type : String} {s : StructLayout}
    (hs : d.get? type = some s) (v : Value) :
    v.form d (.embedded type) = s.fields.flatMap (v.fieldForm d) := by
  cases v with
  | struct fields =>
    simp only [form, hs, lookup_formFields]
    congr 1
    funext f
    simp only [fieldForm, field?]
    cases fields.lookup f.name <;> rfl
  | _ => simp [form, fieldForm, field?]

end Value

end WireSchema
