-- What reading loses: a flag is read as yes for every byte but zero and written as one, and all
-- else comes back byte for byte. So a value that was read is never refused by the writer, and
-- writing it where it was read only settles the loose flags.
import WireSchema.Proofs.Wire.Delimited

namespace WireSchema

open Outcome

/-! ## Flags -/

/-- A byte as it is written again. A flag above one becomes one. -/
def settleByte (flag : Bool) (b : UInt8) : UInt8 := if flag = true ∧ 1 < b then 1 else b

/-- Which bytes of a scalar are flags: the one of a truth value. -/
def Scalar.flags (scalar : Scalar) : List Bool :=
  match scalar with
  | .bool => [true]
  | scalar => List.replicate scalar.width false

namespace Value

mutual

/-- Which bytes of a value's form are flags: truth values, and the marks of scalars that may be
absent. -/
def flags (d : DocumentLayout) (v : Value) (l : Layout) : List Bool :=
  match l with
  | .fixed scalar => scalar.flags
  | .nullable scalar =>
    match v with
    | null => [true]
    | _ => true :: scalar.flags
  | .string =>
    match v with
    | string s => List.replicate (countWidth + (Text.bytes s).length) false
    | _ => []
  | .fixedBytes _ =>
    match v with
    | bytes bs => List.replicate bs.length false
    | _ => []
  | .dynamicBytes =>
    match v with
    | bytes bs => List.replicate (countWidth + bs.length) false
    | _ => []
  | .fixedArray _ elem =>
    match v with
    | array xs => itemFlags d xs elem
    | _ => []
  | .dynamicArray elem =>
    match v with
    | array xs => List.replicate countWidth false ++ itemFlags d xs elem
    | _ => []
  | .map key value =>
    match v with
    | map es => List.replicate countWidth false ++ entryFlags d es key value
    | _ => []
  | .embedded type =>
    match v with
    | struct fields =>
      match d.get? type with
      | some s => s.fields.flatMap fun f =>
        match (fieldFlags d fields).lookup f.name with
        | some part => part f.layout
        | none => []
      | none => []
    | _ => []

/-- The flags of elements one after the other. -/
def itemFlags (d : DocumentLayout) (xs : List Value) (elem : Layout) : List Bool :=
  match xs with
  | [] => []
  | x :: xs => x.flags d elem ++ itemFlags d xs elem

/-- The flags of entries one after the other. -/
def entryFlags (d : DocumentLayout) (es : List (Value × Value)) (key value : Layout) :
    List Bool :=
  match es with
  | [] => []
  | (k, v) :: es => k.flags d key ++ v.flags d value ++ entryFlags d es key value

/-- The flags of each field, for the layout that the struct will give it. -/
def fieldFlags (d : DocumentLayout) (fields : List (String × Value)) :
    List (String × (Layout → List Bool)) :=
  match fields with
  | [] => []
  | (name, v) :: fields => (name, v.flags d) :: fieldFlags d fields

end

theorem flags_present {v : Value} (h : v ≠ null) (d : DocumentLayout) (scalar : Scalar) :
    v.flags d (.nullable scalar) = true :: scalar.flags := by
  cases v with
  | null => exact absurd rfl h
  | _ => rfl

theorem itemFlags_eq (d : DocumentLayout) (xs : List Value) (elem : Layout) :
    itemFlags d xs elem = xs.flatMap (·.flags d elem) := by
  induction xs with
  | nil => rfl
  | cons x xs ih => rw [itemFlags, ih, List.flatMap_cons]

theorem entryFlags_eq (d : DocumentLayout) (es : List (Value × Value)) (key value : Layout) :
    entryFlags d es key value = es.flatMap fun e => e.1.flags d key ++ e.2.flags d value := by
  induction es with
  | nil => rfl
  | cons e es ih => rw [entryFlags, ih, List.flatMap_cons]

theorem lookup_fieldFlags (d : DocumentLayout) (fields : List (String × Value)) (name : String) :
    (fieldFlags d fields).lookup name = (fields.lookup name).map (·.flags d) := by
  induction fields with
  | nil => rfl
  | cons f fields ih =>
    rw [fieldFlags, List.lookup_cons, List.lookup_cons, ih]
    cases name == f.1 <;> rfl

end Value

/-! ## The scalars of a document -/

/-- The scalars in a layout, not those of the structs that it names. -/
def Layout.scalars : Layout → List Scalar
  | .fixed scalar | .nullable scalar => [scalar]
  | .fixedArray _ elem | .dynamicArray elem => elem.scalars
  | .map key value => key.scalars ++ value.scalars
  | _ => []

/-- The scalars of a document. -/
def DocumentLayout.scalars (d : DocumentLayout) : List Scalar :=
  d.structs.flatMap fun s => s.fields.flatMap fun f => f.layout.scalars

theorem DocumentLayout.mem_scalars {d : DocumentLayout} {type : String} {s : StructLayout}
    {f : FieldLayout} {scalar : Scalar} (hs : d.get? type = some s) (hf : f ∈ s.fields)
    (h : scalar ∈ f.layout.scalars) : scalar ∈ d.scalars :=
  List.mem_flatMap.2 ⟨s, List.mem_of_find?_eq_some hs, List.mem_flatMap.2 ⟨f, hf, h⟩⟩

/-! ## Bytes that come back -/

/-- Only valid bytes have a text, and they are its bytes. -/
theorem Text.bytes_of_ofBytes? {bs : List UInt8} {s : String} (h : Text.ofBytes? bs = some s) :
    Text.bytes s = bs := by
  unfold Text.ofBytes? String.fromUTF8? at h
  split at h
  · cases h
    simp [Text.bytes, String.fromUTF8]
  · cases h

theorem length_flatMap_congr {τ : Type} {f g : τ → List UInt8} {ts : List τ}
    (h : ∀ t ∈ ts, (f t).length = (g t).length) :
    (ts.flatMap f).length = (ts.flatMap g).length := by
  rw [List.length_flatMap, List.length_flatMap, List.map_congr_left h]

/-- Bytes come back as others, but for flags that are settled. -/
def Settles (flags : List Bool) (bs form : List UInt8) : Prop :=
  flags.length = bs.length ∧ form = List.zipWith settleByte flags bs

namespace Settles

variable {flags : List Bool} {as bs form : List UInt8}

theorem plain (bs : List UInt8) : Settles (List.replicate bs.length false) bs bs := by
  refine ⟨List.length_replicate, ?_⟩
  induction bs with
  | nil => rfl
  | cons b bs ih =>
    rw [List.length_cons, List.replicate_succ, List.zipWith_cons_cons, ← ih]
    rfl

theorem append {flags' : List Bool} {form' : List UInt8} (ha : Settles flags as form)
    (hb : Settles flags' bs form') : Settles (flags ++ flags') (as ++ bs) (form ++ form') := by
  obtain ⟨halen, rfl⟩ := ha
  obtain ⟨hblen, rfl⟩ := hb
  refine ⟨by rw [List.length_append, List.length_append, halen, hblen], ?_⟩
  rw [List.zipWith_append halen]

theorem flatMap {τ : Type} {marks : τ → List Bool} {bytes forms : τ → List UInt8} {ts : List τ}
    (h : ∀ t ∈ ts, Settles (marks t) (bytes t) (forms t)) :
    Settles (ts.flatMap marks) (ts.flatMap bytes) (ts.flatMap forms) := by
  induction ts with
  | nil => exact ⟨rfl, rfl⟩
  | cons t ts ih =>
    simp only [List.flatMap_cons]
    exact (h t (List.mem_cons_self ..)).append (ih fun u hu => h u (List.mem_cons_of_mem t hu))

/-- A count is no flag. -/
theorem counted (n : Nat) (h : Settles flags bs form) :
    Settles (List.replicate countWidth false ++ flags) (Wire.countForm n ++ bs)
      (Wire.countForm n ++ form) := by
  have hcount := plain (Wire.countForm n)
  rw [Wire.length_countForm] at hcount
  exact hcount.append h

theorem block (bs : List UInt8) :
    Settles (List.replicate (countWidth + bs.length) false) (Wire.countForm bs.length ++ bs)
      (Wire.countForm bs.length ++ bs) := by
  rw [List.replicate_add]
  exact (plain bs).counted bs.length

end Settles

namespace Scalar

/-- A truth value is written as one or zero, so its byte comes back settled. -/
theorem settles_flag (b : UInt8) : Settles [true] [b] [if b ≠ 0 then 1 else 0] := by
  refine ⟨rfl, ?_⟩
  by_cases hzero : b = 0
  · subst hzero
    rfl
  · by_cases hone : b = 1
    · subst hone
      rfl
    · have hloose : 1 < b := by
        rw [UInt8.lt_iff_toNat_lt]
        have hzero' : b.toNat ≠ 0 := fun h => hzero (UInt8.toNat_inj.1 h)
        have hone' : b.toNat ≠ 1 := fun h => hone (UInt8.toNat_inj.1 h)
        change 1 < b.toNat
        omega
      simp [settleByte, hzero, hloose]

/-- What bits of a scalar stand for is written in as many bytes, and the bytes come back unless
they are those of a narrow float. -/
theorem bytes_ofBits {scalar : Scalar} {bs : List UInt8} (hlen : bs.length = scalar.width) :
    ∃ form, scalar.bytes (scalar.ofBits (Bytes.ofLittle bs)) = .ok form ∧
      (scalar ≠ .f32 → Settles scalar.flags bs form) := by
  have hlt := Bytes.ofLittle_lt bs
  have hbytes := Bytes.little_ofLittle bs
  have hplain := Settles.plain bs
  rw [hlen] at hlt hbytes hplain
  cases scalar with
  | bool =>
    obtain ⟨b, rfl⟩ := List.length_eq_one_iff.1 hlen
    refine ⟨_, rfl, fun _ => ?_⟩
    have hsettles := settles_flag b
    have hflag : Bytes.ofLittle [b] = 0 ↔ b = 0 := by
      simp [Bytes.ofLittle, ← UInt8.toNat_inj]
    simpa only [flags, bne_iff_ne, ne_eq, hflag] using hsettles
  | f32 => exact ⟨_, rfl, fun h => absurd rfl h⟩
  | f64 =>
    refine ⟨bs, ?_, fun _ => hplain⟩
    have hbits : (UInt64.ofNat (Bytes.ofLittle bs)).toNat = Bytes.ofLittle bs :=
      UInt64.toNat_ofNat_of_lt' hlt
    simp only [bytes, ofBits, float, Except.map, hbits]
    rw [show Bytes.little 8 (Bytes.ofLittle bs) = bs from hbytes]
  | i8 | i16 | i32 | i64 =>
    obtain ⟨hlo, hhi⟩ := Bytes.signed_bounds (by decide) hlt
    refine ⟨bs, signedBytes_eq_ok.2 ⟨_, ?_, ⟨hlo, hhi⟩, ?_⟩, fun _ => hplain⟩
    · simp only [width] at hlo hhi ⊢
      rw [ofBits, integer, Int64.toInt_ofInt_of_le (by simp only [width]; omega)
        (by simp only [width]; omega)]
      rfl
    · rw [Bytes.wrap_signed hlt, hbytes]
  | u8 | u16 | u32 | u64 =>
    have hrange : (0 : Int) ≤ Bytes.ofLittle bs ∧ (Bytes.ofLittle bs : Int) < (2 ^ _ : Nat) :=
      ⟨by omega, Int.ofNat_lt.2 hlt⟩
    refine ⟨bs, unsignedBytes_eq_ok.2 ⟨Bytes.ofLittle bs, ?_, hrange, ?_⟩, fun _ => hplain⟩
    · have hfits : Bytes.ofLittle bs < UInt64.size := by
        simp only [width] at hlt
        simp only [UInt64.size]
        omega
      rw [ofBits, integer, UInt64.toNat_ofNat_of_lt' hfits]
    · rw [Int.toNat_natCast, hbytes]

/-- What bits of a scalar stand for is read again from the bytes that are written for it. -/
theorem ofBits_form {scalar : Scalar} {bs : List UInt8} (hwide : scalar ≠ .f32)
    (hlen : bs.length = scalar.width) :
    let v := scalar.ofBits (Bytes.ofLittle bs)
    (scalar.form v).length = scalar.width ∧ scalar.ofBits (Bytes.ofLittle (scalar.form v)) = v := by
  intro v
  obtain ⟨form, hform, _⟩ := bytes_ofBits hlen
  have hexact : scalar.Exact v := by
    cases scalar with
    | f32 => exact absurd rfl hwide
    | f64 => exact ⟨_, rfl⟩
    | _ => trivial
  rw [form_eq hform]
  exact ⟨length_bytes hform, (ofBits_bytes hform hexact).trans (normal_ofBits scalar _)⟩

theorem ofBits_ne_null (scalar : Scalar) (bits : Nat) : scalar.ofBits bits ≠ .null := by
  cases scalar <;> simp [ofBits]

end Scalar

namespace Wire

variable {d : DocumentLayout} {room : Nat} {l : Layout} {bs : List UInt8} {v : Value}

section Struct

variable {type : String} {s : StructLayout} {parts : List (FieldLayout × List UInt8 × Value)}
  (hd : d.FieldsDiffer) (hs : d.get? type = some s) (hfields : parts.map Prod.fst = s.fields)
include hd hs hfields

theorem form_parts : (Value.struct (parts.map fun p => (p.1.name, p.2.2))).form d (.embedded type) =
    parts.flatMap fun p => p.2.2.form d p.1.layout := by
  rw [Value.form_embedded hs, ← hfields, List.flatMap_map]
  refine List.flatMap_congr fun p hp => ?_
  simp only [Value.fieldForm, Value.field?, lookup_part hd hs hfields hp]

theorem flags_parts :
    (Value.struct (parts.map fun p => (p.1.name, p.2.2))).flags d (.embedded type) =
      parts.flatMap fun p => p.2.2.flags d p.1.layout := by
  simp only [Value.flags, hs, Value.lookup_fieldFlags, ← hfields, List.flatMap_map]
  refine List.flatMap_congr fun p hp => ?_
  rw [lookup_part hd hs hfields hp]
  rfl

end Struct

/-! ## What was read can be written -/

/-- A value that was read fits its layout, and its form is as long as the bytes that it was read
from. -/
theorem Yields.fits (hd : d.FieldsDiffer) (h : Yields d room l bs v) :
    Fits d room l v ∧ (v.form d l).length = bs.length := by
  induction h with
  | fixed hlen =>
    obtain ⟨form, hform, _⟩ := Scalar.bytes_ofBits hlen
    rw [Value.form, Scalar.form_eq hform, Scalar.length_bytes hform, hlen]
    exact ⟨.fixed hform, rfl⟩
  | absent => exact ⟨.absent, rfl⟩
  | @present _ scalar flag bs hflag hlen =>
    obtain ⟨form, hform, _⟩ := Scalar.bytes_ofBits hlen
    have hne := scalar.ofBits_ne_null (Bytes.ofLittle bs)
    rw [Value.form_present hne, List.length_cons, List.length_cons, Scalar.form_eq hform,
      Scalar.length_bytes hform, hlen]
    exact ⟨.present hne hform, rfl⟩
  | string hlen htext =>
    obtain rfl := Text.bytes_of_ofBytes? htext
    exact ⟨.string hlen, rfl⟩
  | fixedBytes hlen => exact ⟨.fixedBytes hlen, rfl⟩
  | dynamicBytes hlen => exact ⟨.dynamicBytes hlen, rfl⟩
  | fixedArray hlen _ ih =>
    refine ⟨.fixedArray (by rwa [List.length_map]) ?_, ?_⟩
    · exact List.forall_mem_map.2 fun p hp => (ih p hp).1
    · rw [Value.form, Value.formItems_eq, List.flatMap_map]
      exact length_flatMap_congr fun p hp => (ih p hp).2
  | dynamicArray hlen _ _ ih =>
    refine ⟨.dynamicArray (by rwa [List.length_map]) ?_, ?_⟩
    · exact List.forall_mem_map.2 fun p hp => (ih p hp).1
    · rw [Value.form, Value.formItems_eq, List.flatMap_map, List.length_append, List.length_append,
        length_countForm, length_countForm]
      congr 1
      exact length_flatMap_congr fun p hp => (ih p hp).2
  | map hlen _ _ _ ihk ihv =>
    refine ⟨.map (by rwa [List.length_map]) ?_ ?_, ?_⟩
    · exact List.forall_mem_map.2 fun p hp => (ihk p hp).1
    · exact List.forall_mem_map.2 fun p hp => (ihv p hp).1
    · rw [Value.form, Value.formEntries_eq, List.flatMap_map, List.length_append,
        List.length_append, length_countForm, length_countForm]
      congr 1
      refine length_flatMap_congr fun p hp => ?_
      rw [List.length_append, List.length_append, (ihk p hp).2, (ihv p hp).2]
  | @struct room type s parts hs hfields _ ih =>
    refine ⟨.struct hs ?_ ?_ ?_, ?_⟩
    · rintro f hf
      obtain ⟨p, hp, rfl⟩ := List.mem_map.1 hf
      exact ⟨p.1, hfields ▸ List.mem_map_of_mem hp, rfl⟩
    · rw [← hfields]
      exact List.forall_mem_map.2 fun p hp => ⟨_, lookup_part hd hs hfields hp⟩
    · rw [← hfields]
      refine List.forall_mem_map.2 fun p hp x hx => ?_
      rw [lookup_part hd hs hfields hp] at hx
      cases hx
      exact (ih p hp).1
    · rw [form_parts hd hs hfields]
      exact length_flatMap_congr fun p hp => (ih p hp).2

/-! ## Writing settles the flags -/

section Wide

variable (hd : d.FieldsDiffer) (hwide : Scalar.f32 ∉ d.scalars)
include hd hwide

/-- Where no narrow float is, the form of a value that was read is the bytes that it was read
from, with the flags settled. -/
theorem Yields.settles (h : Yields d room l bs v) (hl : Scalar.f32 ∉ l.scalars) :
    Settles (v.flags d l) bs (v.form d l) := by
  induction h with
  | fixed hlen =>
    obtain ⟨form, hform, hsettles⟩ := Scalar.bytes_ofBits hlen
    rw [Value.form, Scalar.form_eq hform, Value.flags]
    exact hsettles fun h => hl (h ▸ List.mem_singleton_self _)
  | absent => exact ⟨rfl, rfl⟩
  | @present _ scalar flag bs hflag hlen =>
    obtain ⟨form, hform, hsettles⟩ := Scalar.bytes_ofBits hlen
    have hne := scalar.ofBits_ne_null (Bytes.ofLittle bs)
    have hmark := Scalar.settles_flag flag
    rw [if_pos hflag] at hmark
    rw [Value.form_present hne, Value.flags_present hne, Scalar.form_eq hform]
    exact hmark.append (hsettles fun h => hl (h ▸ List.mem_singleton_self _))
  | string _ htext =>
    obtain rfl := Text.bytes_of_ofBytes? htext
    exact .block _
  | fixedBytes => exact .plain _
  | dynamicBytes => exact .block _
  | fixedArray _ _ ih =>
    rw [Value.form, Value.flags, Value.formItems_eq, Value.itemFlags_eq, List.flatMap_map,
      List.flatMap_map]
    exact .flatMap fun p hp => ih p hp hl
  | dynamicArray _ _ _ ih =>
    rw [Value.form, Value.flags, Value.formItems_eq, Value.itemFlags_eq, List.flatMap_map,
      List.flatMap_map, List.length_map]
    exact .counted _ (.flatMap fun p hp => ih p hp hl)
  | map _ _ _ _ ihk ihv =>
    obtain ⟨hkey, hvalue⟩ := not_or.1 (mt List.mem_append.2 hl)
    rw [Value.form, Value.flags, Value.formEntries_eq, Value.entryFlags_eq, List.flatMap_map,
      List.flatMap_map, List.length_map]
    exact .counted _ (.flatMap fun p hp => (ihk p hp hkey).append (ihv p hp hvalue))
  | struct hs hfields _ ih =>
    rw [form_parts hd hs hfields, flags_parts hd hs hfields]
    refine .flatMap fun p hp => ih p hp fun h => hwide ?_
    exact DocumentLayout.mem_scalars hs (hfields ▸ List.mem_map_of_mem hp) h

/-- Where no narrow float is, a value that was read is read again from its form. -/
theorem Yields.form (h : Yields d room l bs v) (hl : Scalar.f32 ∉ l.scalars) :
    Yields d room l (v.form d l) v := by
  induction h with
  | @fixed room scalar bs hlen =>
    obtain ⟨hform, hsame⟩ :=
      Scalar.ofBits_form (fun h => hl (h ▸ List.mem_singleton_self _)) hlen
    have hyields : Yields d room (.fixed scalar) _ _ := .fixed hform
    rw [hsame] at hyields
    rwa [Value.form]
  | absent => exact .absent
  | @present room scalar flag bs hflag hlen =>
    obtain ⟨hform, hsame⟩ :=
      Scalar.ofBits_form (fun h => hl (h ▸ List.mem_singleton_self _)) hlen
    have hyields : Yields d room (.nullable scalar) (1 :: _) _ := .present (by decide) hform
    rwa [hsame, ← Value.form_present (scalar.ofBits_ne_null _)] at hyields
  | string hlen htext =>
    obtain rfl := Text.bytes_of_ofBytes? htext
    exact .string hlen htext
  | fixedBytes hlen => exact .fixedBytes hlen
  | dynamicBytes hlen => exact .dynamicBytes hlen
  | @fixedArray room len elem parts hlen _ ih =>
    have hcount := parts.length_map fun p => (p.2.form d elem, p.2)
    have hyields : Yields d room (.fixedArray len elem) _ _ :=
      .fixedArray (hcount.trans hlen) (List.forall_mem_map.2 fun p hp => ih p hp hl)
    rw [Value.form, Value.formItems_eq]
    simpa only [List.flatMap_map, List.map_map, Function.comp_def] using hyields
  | @dynamicArray room elem parts hlen hfew _ ih =>
    have hcount := parts.length_map fun p => (p.2.form d elem, p.2)
    have hyields : Yields d room (.dynamicArray elem) _ _ :=
      .dynamicArray (hcount.trans_lt hlen) (fun h => hcount.trans_le (hfew h))
        (List.forall_mem_map.2 fun p hp => ih p hp hl)
    rw [Value.form, Value.formItems_eq]
    simpa only [List.flatMap_map, List.map_map, List.length_map, Function.comp_def] using hyields
  | @map room key value parts hlen hfew _ _ ihk ihv =>
    obtain ⟨hkey, hvalue⟩ := not_or.1 (mt List.mem_append.2 hl)
    have hcount := parts.length_map fun p =>
      ((p.1.2.form d key, p.1.2), p.2.2.form d value, p.2.2)
    have hyields : Yields d room (.map key value) _ _ :=
      .map (hcount.trans_lt hlen) (fun h => hcount.trans_le (hfew h))
        (List.forall_mem_map.2 fun p hp => ihk p hp hkey)
        (List.forall_mem_map.2 fun p hp => ihv p hp hvalue)
    rw [Value.form, Value.formEntries_eq]
    simpa only [List.flatMap_map, List.map_map, List.length_map, Function.comp_def] using hyields
  | @struct room type s parts hs hfields _ ih =>
    have hnames : (parts.map fun p => (p.1, p.2.2.form d p.1.layout, p.2.2)).map Prod.fst =
        s.fields := by
      rw [List.map_map, ← hfields]
      rfl
    have hyields : Yields d (room + 1) (.embedded type) _ _ :=
      .struct hs hnames (List.forall_mem_map.2 fun p hp => ih p hp fun h => hwide
        (DocumentLayout.mem_scalars hs (hfields ▸ List.mem_map_of_mem hp) h))
    rw [form_parts hd hs hfields]
    simpa only [List.flatMap_map, List.map_map, Function.comp_def] using hyields

end Wide

end Wire

namespace Codec

open Wire

variable {d : DocumentLayout} {type : String} {buf bs : List UInt8} {offset : Nat} {v : Value}

theorem size_of_yields (hd : d.FieldsDiffer) (h : Yields d maxDepth (.embedded type) bs v) :
    (ofLayout d).size type v = .ok bs.length := by
  obtain ⟨hfits, hlen⟩ := h.fits hd
  exact size_eq_ok_iff.2 ⟨hfits, hlen.symm⟩

/-- A value written over the bytes that it was read from settles their flags, and is read from
them again. -/
theorem marshal_of_yields (hd : d.FieldsDiffer) (hwide : Scalar.f32 ∉ d.scalars)
    (h : Yields d maxDepth (.embedded type) bs v) (hoffset : offset + bs.length ≤ buf.length) :
    let flags := v.flags d (.embedded type)
    let settled := buf.take offset ++ List.zipWith settleByte flags bs ++
      buf.drop (offset + bs.length)
    flags.length = bs.length ∧
      (ofLayout d).marshal type v buf offset = (settled, .ok (offset + bs.length)) ∧
      (ofLayout d).unmarshal type settled offset = .ok (v, offset + bs.length) := by
  intro flags settled
  obtain ⟨hlen, hform⟩ := h.settles hd hwide List.not_mem_nil
  have hformLen := (h.fits hd).2
  refine ⟨hlen, ?_, ?_⟩
  · rw [marshal_of_size (size_of_yields hd h) hoffset]
    change (overwrite buf offset (v.form d (.embedded type)), _) = _
    rw [overwrite, hformLen, hform]
  · have hholds := Input.holds_ofBuffer (buf.take offset) (v.form d (.embedded type))
      (buf.drop (offset + bs.length))
    rw [List.length_take_of_le (by omega), hform] at hholds
    have hread := unmarshal_of_holds (hform ▸ h.form hd hwide List.not_mem_nil) hholds
    rwa [← hform, hformLen, hform] at hread

/-- Reading loses nothing but loose flags. What was read lies inside the buffer and has the size
of its bytes. Where no narrow float is, writing it where it was read changes only flags above
one, which become one, and it is read from there again. -/
theorem reading_loses_only_loose_flags (doc : Document) (hdoc : doc.check = .ok ()) :
    ∃ c, Codec.ofDocument doc = .ok c ∧
      ∀ type buf offset v stop, offset ≤ buf.length →
        c.unmarshal type buf offset = .ok (v, stop) →
        offset ≤ stop ∧ stop ≤ buf.length ∧ c.size type v = .ok (stop - offset) ∧
        (Scalar.f32 ∉ c.layouts.scalars →
          let flags := v.flags c.layouts (.embedded type)
          let settled := buf.take offset ++
            List.zipWith settleByte flags (buf.extract offset stop) ++ buf.drop stop
          flags.length = stop - offset ∧
            c.marshal type v buf offset = (settled, .ok stop) ∧
            c.unmarshal type settled offset = .ok (v, stop)) := by
  obtain ⟨shapes, hsound, hlayout, _⟩ := Document.shaped_of_check hdoc
  have hd := doc.fieldsDiffer_layoutOf hsound
  refine ⟨ofLayout (doc.layoutOf shapes), by rw [ofDocument, hlayout], ?_⟩
  intro type buf offset v stop hoffset hread
  obtain ⟨bs, hbs, rfl, hyields⟩ := yields_of_unmarshal hread
  have hroom : offset + bs.length ≤ buf.length := by
    have hle : bs.length ≤ (buf.drop offset).length := hbs.length_le
    rw [List.length_drop] at hle
    omega
  have hbytes : buf.extract offset (offset + bs.length) = bs := by
    rw [List.extract_eq_take_drop, Nat.add_sub_cancel_left]
    exact (List.prefix_iff_eq_take.1 hbs).symm
  rw [Nat.add_sub_cancel_left, hbytes]
  exact ⟨Nat.le_add_right .., hroom, size_of_yields hd hyields,
    fun hwide => marshal_of_yields hd hwide hyields hroom⟩

/-- A document of one struct, with a truth value and a number that may be absent. -/
def flagDocument : Document :=
  ⟨"p", [⟨"S", none, [⟨"B", .ofKind .bool⟩,
    ⟨"N", ⟨.pointer, some (.ofKind .uint8), none, 0, none⟩⟩]⟩]⟩

def flagLayout : DocumentLayout :=
  ⟨1, "p", .little, [⟨"S", [⟨"B", .fixed .bool⟩, ⟨"N", .nullable .u8⟩]⟩]⟩

/-- A loose truth value and a loose mark are settled, and the number behind them is as it was. -/
theorem two_loose_flags_are_settled :
    flagDocument.check = .ok () ∧ ∃ c, Codec.ofDocument flagDocument = .ok c ∧
      c.marshal "S" (.struct [("B", .bool true), ("N", .uint 3)]) [9, 7, 5, 3, 8] 1 =
        ([9, 1, 1, 3, 8], .ok 4) ∧
      c.unmarshal "S" [9, 1, 1, 3, 8] 1 =
        .ok (.struct [("B", .bool true), ("N", .uint 3)], 4) := by
  have hdoc : flagDocument.check = .ok () := by rfl
  obtain ⟨c, hc, hall⟩ := reading_loses_only_loose_flags flagDocument hdoc
  obtain rfl : c = ofLayout flagLayout := Except.ok.inj (hc.symm.trans (by rfl))
  have hread : (ofLayout flagLayout).unmarshal "S" [9, 7, 5, 3, 8] 1 =
      .ok (.struct [("B", .bool true), ("N", .uint 3)], 4) := by rfl
  obtain ⟨_, _, _, hsettled⟩ := hall "S" _ 1 _ 4 (by decide) hread
  obtain ⟨_, hmarshal, hagain⟩ := hsettled (by decide)
  exact ⟨hdoc, _, hc, hmarshal, hagain⟩

end Codec

end WireSchema
