-- The normal form of a value: what reading gives back of it. Integers are kept as the scalar
-- has them, signed or not, and a struct lists the fields of its layout in order.
import WireSchema.Proofs.Wire.Fits

namespace WireSchema

open Outcome Wire

/-! ## Scalars -/

namespace Scalar

/-- An integer as a signed scalar has it. -/
def signedNormal (v : Value) : Value :=
  match integer v with
  | .ok n => .int (Int64.ofInt n)
  | .error _ => v

/-- An integer as an unsigned scalar has it. -/
def unsignedNormal (v : Value) : Value :=
  match integer v with
  | .ok n => .uint (UInt64.ofNat n.toNat)
  | .error _ => v

/-- A value as reading gives it back: integers signed or unsigned like the scalar. -/
def normal (scalar : Scalar) (v : Value) : Value :=
  match scalar with
  | .i8 | .i16 | .i32 | .i64 => signedNormal v
  | .u8 | .u16 | .u32 | .u64 => unsignedNormal v
  | _ => v

/-- A value that a scalar of floating point keeps: a float, and for the narrow scalar one that
comes back from the nearest narrow float. Other scalars keep every value. -/
def Exact (scalar : Scalar) (v : Value) : Prop :=
  match scalar with
  | .f32 => ∃ x, v = .float x ∧ Binary64.ofSingleBits x.toSingleBits = x
  | .f64 => ∃ x, v = .float x
  | _ => True

/-- The bits of a scalar's bytes stand for its normal form. -/
theorem ofBits_bytes {scalar : Scalar} {v : Value} {bs : List UInt8}
    (h : scalar.bytes v = .ok bs) (hexact : scalar.Exact v) :
    scalar.ofBits (Bytes.ofLittle bs) = scalar.normal v := by
  cases scalar with
  | bool =>
    cases v with
    | bool b => cases h; cases b <;> rfl
    | _ => cases h
  | f32 =>
    obtain ⟨x, rfl, hx⟩ := hexact
    cases h
    rw [Bytes.ofLittle_little x.toSingleBits.toNat_lt, ofBits, UInt32.ofNat_toNat, hx]
    rfl
  | f64 =>
    obtain ⟨x, rfl⟩ := hexact
    cases h
    rw [Bytes.ofLittle_little x.bits.toNat_lt, ofBits, UInt64.ofNat_toNat]
    rfl
  | i8 | i16 | i32 | i64 =>
    obtain ⟨n, hn, ⟨hlo, hhi⟩, rfl⟩ := signedBytes_eq_ok.1 h
    rw [Bytes.ofLittle_little (Bytes.wrap_lt _ n)]
    simp only [ofBits, normal, signedNormal, hn, Bytes.signed_wrap (by decide) hlo hhi]
  | u8 | u16 | u32 | u64 =>
    obtain ⟨n, hn, ⟨hlo, hhi⟩, rfl⟩ := unsignedBytes_eq_ok.1 h
    rw [Bytes.ofLittle_little (by omega)]
    simp only [ofBits, normal, unsignedNormal, hn]

/-- What a scalar's bits stand for is normal. -/
theorem normal_ofBits (scalar : Scalar) (bits : Nat) :
    scalar.normal (scalar.ofBits bits) = scalar.ofBits bits := by
  cases scalar with
  | i8 | i16 | i32 | i64 => simp only [normal, ofBits, signedNormal, integer, Int64.ofInt_toInt]
  | u8 | u16 | u32 | u64 =>
    simp only [normal, ofBits, unsignedNormal, integer, Int.toNat_natCast, UInt64.ofNat_toNat]
  | _ => rfl

theorem signedBytes_normal {width : Nat} {v : Value} {bs : List UInt8} (hwidth : width ≤ 8)
    (h : signedBytes width v = .ok bs) : signedBytes width (signedNormal v) = .ok bs := by
  obtain ⟨n, hn, ⟨hlo, hhi⟩, rfl⟩ := signedBytes_eq_ok.1 h
  have hword : 2 ^ (8 * width - 1) ≤ 2 ^ 63 := Nat.pow_le_pow_right (by decide) (by omega)
  refine signedBytes_eq_ok.2 ⟨n, ?_, ⟨hlo, hhi⟩, rfl⟩
  simp only [signedNormal, hn]
  rw [integer, Int64.toInt_ofInt_of_le (by omega) (by omega)]

theorem unsignedBytes_normal {width : Nat} {v : Value} {bs : List UInt8} (hwidth : width ≤ 8)
    (h : unsignedBytes width v = .ok bs) : unsignedBytes width (unsignedNormal v) = .ok bs := by
  obtain ⟨n, hn, ⟨hlo, hhi⟩, rfl⟩ := unsignedBytes_eq_ok.1 h
  have hword : 2 ^ (8 * width) ≤ 2 ^ 64 := Nat.pow_le_pow_right (by decide) (by omega)
  refine unsignedBytes_eq_ok.2 ⟨n, ?_, ⟨hlo, hhi⟩, rfl⟩
  have hfits : n.toNat < UInt64.size := by
    change n.toNat < 2 ^ 64
    omega
  simp only [unsignedNormal, hn]
  rw [integer, UInt64.toNat_ofNat_of_lt' hfits, Int.toNat_of_nonneg hlo]

theorem normal_ne_null {scalar : Scalar} {v : Value} (h : v ≠ .null) :
    scalar.normal v ≠ .null := by
  cases scalar with
  | i8 | i16 | i32 | i64 =>
    simp only [normal, signedNormal]
    split
    · simp
    · exact h
  | u8 | u16 | u32 | u64 =>
    simp only [normal, unsignedNormal]
    split
    · simp
    · exact h
  | _ => exact h

/-- The normal form has the bytes of the value. -/
theorem bytes_normal {scalar : Scalar} {v : Value} {bs : List UInt8}
    (h : scalar.bytes v = .ok bs) : scalar.bytes (scalar.normal v) = .ok bs := by
  cases scalar with
  | i8 | i16 | i32 | i64 => exact signedBytes_normal (by decide) h
  | u8 | u16 | u32 | u64 => exact unsignedBytes_normal (by decide) h
  | _ => exact h

end Scalar

/-! ## Values -/

namespace Value

mutual

/-- A value as reading gives it back. What the layout has no place for stays as it is. -/
def normal (d : DocumentLayout) (v : Value) (l : Layout) : Value :=
  match l with
  | .fixed scalar => scalar.normal v
  | .nullable scalar =>
    match v with
    | null => null
    | v => scalar.normal v
  | .fixedArray _ elem =>
    match v with
    | array xs => array (normalItems d xs elem)
    | v => v
  | .dynamicArray elem =>
    match v with
    | array xs => array (normalItems d xs elem)
    | v => v
  | .map key value =>
    match v with
    | map es => map (normalEntries d es key value)
    | v => v
  | .embedded type =>
    match v with
    | struct fields =>
      match d.get? type with
      | some s => struct (s.fields.filterMap fun f =>
        ((normalFields d fields).lookup f.name).map fun part => (f.name, part f.layout))
      | none => struct fields
    | v => v
  | _ => v

/-- Elements as reading gives them back. -/
def normalItems (d : DocumentLayout) (xs : List Value) (elem : Layout) : List Value :=
  match xs with
  | [] => []
  | x :: xs => x.normal d elem :: normalItems d xs elem

/-- Entries as reading gives them back. -/
def normalEntries (d : DocumentLayout) (es : List (Value × Value)) (key value : Layout) :
    List (Value × Value) :=
  match es with
  | [] => []
  | (k, v) :: es => (k.normal d key, v.normal d value) :: normalEntries d es key value

/-- Each field as reading gives it back, for the layout that the struct will give it. -/
def normalFields (d : DocumentLayout) (fields : List (String × Value)) :
    List (String × (Layout → Value)) :=
  match fields with
  | [] => []
  | (name, v) :: fields => (name, v.normal d) :: normalFields d fields

end

theorem normal_present {v : Value} (h : v ≠ null) (d : DocumentLayout) (scalar : Scalar) :
    v.normal d (.nullable scalar) = scalar.normal v := by
  cases v with
  | null => exact absurd rfl h
  | _ => rfl

theorem normalItems_eq (d : DocumentLayout) (xs : List Value) (elem : Layout) :
    normalItems d xs elem = xs.map (·.normal d elem) := by
  induction xs with
  | nil => rfl
  | cons x xs ih => rw [normalItems, ih, List.map_cons]

theorem normalEntries_eq (d : DocumentLayout) (es : List (Value × Value)) (key value : Layout) :
    normalEntries d es key value =
      es.map fun e => (e.1.normal d key, e.2.normal d value) := by
  induction es with
  | nil => rfl
  | cons e es ih => rw [normalEntries, ih, List.map_cons]

theorem lookup_normalFields (d : DocumentLayout) (fields : List (String × Value)) (name : String) :
    (normalFields d fields).lookup name = (fields.lookup name).map (·.normal d) := by
  induction fields with
  | nil => rfl
  | cons f fields ih =>
    rw [normalFields, List.lookup_cons, List.lookup_cons, ih]
    cases name == f.1 <;> rfl

/-- A struct lists the fields of its layout that it has, in order of declaration. -/
theorem normal_struct {d : DocumentLayout} {type : String} {s : StructLayout}
    (hs : d.get? type = some s) (given : List (String × Value)) :
    (struct given).normal d (.embedded type) =
      struct (s.fields.filterMap fun f =>
        (given.lookup f.name).map fun x => (f.name, x.normal d f.layout)) := by
  simp only [normal, hs, lookup_normalFields, Option.map_map]
  rfl

end Value

/-! ## Writing the normal form -/

/-- The fields of each struct have names of their own. -/
def DocumentLayout.FieldsDiffer (d : DocumentLayout) : Prop :=
  ∀ s ∈ d.structs, (s.fields.map FieldLayout.name).Nodup

theorem DocumentLayout.FieldsDiffer.get {d : DocumentLayout} (h : d.FieldsDiffer) {type : String}
    {s : StructLayout} (hs : d.get? type = some s) : (s.fields.map FieldLayout.name).Nodup :=
  h s (List.mem_of_find?_eq_some hs)

/-- The normal form of a struct that has every field of its layout. -/
theorem Value.normal_struct_of_all {d : DocumentLayout} {type : String} {s : StructLayout}
    {given : List (String × Value)} (hs : d.get? type = some s)
    (hall : ∀ f ∈ s.fields, ∃ x, given.lookup f.name = some x) :
    (struct given).normal d (.embedded type) = struct (s.fields.map fun f =>
      (f.name, ((given.lookup f.name).getD null).normal d f.layout)) := by
  rw [normal_struct hs]
  congr 1
  rw [List.filterMap_eq_map_iff_forall_eq_some]
  intro f hf
  obtain ⟨x, hx⟩ := hall f hf
  rw [hx]
  rfl

/-- The normal form of a value fits where the value does, and has the same form. -/
theorem Wire.Fits.normal {d : DocumentLayout} (hd : d.FieldsDiffer) {room : Nat} {l : Layout}
    {v : Value} (h : Fits d room l v) :
    Fits d room l (v.normal d l) ∧ (v.normal d l).form d l = v.form d l := by
  induction h with
  | fixed hbs =>
    have hnormal := Scalar.bytes_normal hbs
    rw [Value.normal, Value.form, Value.form, Scalar.form_eq hbs, Scalar.form_eq hnormal]
    exact ⟨.fixed hnormal, rfl⟩
  | absent => exact ⟨.absent, rfl⟩
  | @present _ scalar v _ hne hbs =>
    have hnormal := Scalar.bytes_normal hbs
    have hne' : scalar.normal v ≠ .null := Scalar.normal_ne_null hne
    rw [Value.normal_present hne, Value.form_present hne, Value.form_present hne',
      Scalar.form_eq hbs, Scalar.form_eq hnormal]
    exact ⟨.present hne' hnormal, rfl⟩
  | string hlen => exact ⟨.string hlen, rfl⟩
  | fixedBytes hlen => exact ⟨.fixedBytes hlen, rfl⟩
  | dynamicBytes hlen => exact ⟨.dynamicBytes hlen, rfl⟩
  | fixedArray hlen _ ih =>
    simp only [Value.normal, Value.normalItems_eq, Value.form, Value.formItems_eq,
      List.flatMap_map]
    refine ⟨.fixedArray (by rwa [List.length_map]) ?_, List.flatMap_congr fun x hx => (ih x hx).2⟩
    exact List.forall_mem_map.2 fun x hx => (ih x hx).1
  | dynamicArray hlen _ ih =>
    simp only [Value.normal, Value.normalItems_eq, Value.form, Value.formItems_eq,
      List.flatMap_map, List.length_map]
    refine ⟨.dynamicArray (by rwa [List.length_map]) ?_, ?_⟩
    · exact List.forall_mem_map.2 fun x hx => (ih x hx).1
    · rw [List.flatMap_congr fun x hx => (ih x hx).2]
  | map hlen _ _ ihk ihv =>
    simp only [Value.normal, Value.normalEntries_eq, Value.form, Value.formEntries_eq,
      List.flatMap_map, List.length_map]
    refine ⟨.map (by rwa [List.length_map]) ?_ ?_, ?_⟩
    · exact List.forall_mem_map.2 fun e he => (ihk e he).1
    · exact List.forall_mem_map.2 fun e he => (ihv e he).1
    · rw [List.flatMap_congr fun e he => by rw [(ihk e he).2, (ihv e he).2]]
  | @struct room type s given hs hknown hall _ ih =>
    rw [Value.normal_struct_of_all hs hall]
    have hlookup : ∀ f ∈ s.fields, ∀ x, given.lookup f.name = some x →
        (s.fields.map fun f =>
          (f.name, ((given.lookup f.name).getD .null).normal d f.layout)).lookup f.name =
            some (x.normal d f.layout) := by
      intro f hf x hx
      refine lookup_of_nodup ?_ (List.mem_map.2 ⟨f, hf, by rw [hx, Option.getD_some]⟩)
      rw [List.map_map]
      exact hd.get hs
    refine ⟨.struct hs ?_ ?_ ?_, ?_⟩
    · intro g hg
      obtain ⟨f, hf, rfl⟩ := List.mem_map.1 hg
      exact ⟨f, hf, rfl⟩
    · intro f hf
      obtain ⟨x, hx⟩ := hall f hf
      exact ⟨_, hlookup f hf x hx⟩
    · intro f hf y hy
      obtain ⟨x, hx⟩ := hall f hf
      rw [hlookup f hf x hx] at hy
      cases hy
      exact (ih f hf x hx).1
    · rw [Value.form_embedded hs, Value.form_embedded hs]
      refine List.flatMap_congr fun f hf => ?_
      obtain ⟨x, hx⟩ := hall f hf
      simp only [Value.fieldForm, Value.field?, hlookup f hf x hx, hx]
      exact (ih f hf x hx).2

end WireSchema
