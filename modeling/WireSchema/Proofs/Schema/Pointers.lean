-- Pointers that are not there. A pointer to anything but a scalar is what it points to, and each
-- function over types says so in its own way: some look through the pointers at their outermost
-- level only, some at every level, some take them as they come. Here all pointers are taken away
-- at once, and nothing that is made of a document tells.
import WireSchema.Proofs.Native.Expressible
import WireSchema.Proofs.Program.Levels

namespace WireSchema

open Outcome

/-! ## Types without pointers -/

namespace Descriptor

/-- Takes away pointers at every node, all but those to a scalar. -/
def bare : Descriptor → Descriptor
  | ⟨kind, elem, key, len, name⟩ =>
    let elem := match elem with
      | some e => some e.bare
      | none => none
    let key := match key with
      | some k => some k.bare
      | none => none
    unwrapped ⟨kind, elem, key, len, name⟩

/-- The type itself, of parts without pointers. -/
def ofBareParts (ty : Descriptor) : Descriptor :=
  ⟨ty.kind, ty.elem.map bare, ty.key.map bare, ty.len, ty.name⟩

theorem bare_eq (ty : Descriptor) : ty.bare = ty.ofBareParts.unwrapped := by
  obtain ⟨kind, elem, key, len, name⟩ := ty
  rw [bare.eq_def]
  cases elem <;> cases key <;> rfl

theorem unwrapped_unwrapped (ty : Descriptor) : ty.unwrapped.unwrapped = ty.unwrapped :=
  eq_of_unwrapped (fun _ _ _ _ h => unwrapped_pointer h) ty

/-- The pointers that are left point to scalars. -/
theorem isScalar_of_unwrapped {ty e : Descriptor} (hkind : ty.unwrapped.kind = .pointer)
    (helem : ty.unwrapped.elem = some e) : e.kind.isScalar = true := by
  fun_induction unwrapped ty with
  | case1 _ _ _ _ hscalar =>
    cases helem
    exact hscalar
  | case2 _ _ _ _ _ ih => exact ih hkind helem
  | case3 ty hty =>
    obtain ⟨kind, elem, key, len, name⟩ := ty
    cases hkind
    cases helem
    exact (hty _ _ _ _ rfl).elim

/-- A type stays as it is unless it is a pointer to something else than a scalar. -/
theorem unwrapped_of_isScalar {ty : Descriptor}
    (h : ty.kind = .pointer → ∀ e, ty.elem = some e → e.kind.isScalar = true) :
    ty.unwrapped = ty := by
  fun_cases unwrapped ty with
  | case1 => rfl
  | case2 pointee _ _ _ hkind => exact absurd (h rfl pointee rfl) hkind
  | case3 => rfl

theorem isScalar_eq (kind : Kind) : kind.isScalar = (Scalar.ofKind? kind).isSome := by
  cases kind <;> rfl

/-- Without pointers a type is a scalar when it was one, and then the same. -/
@[simp]
theorem ofKind?_bare (ty : Descriptor) : Scalar.ofKind? ty.bare.kind = Scalar.ofKind? ty.kind := by
  rw [bare_eq]
  refine eq_of_unwrapped (g := fun ty => Scalar.ofKind? ty.kind) (fun pointee _ _ _ h => ?_) _
  rw [isScalar_eq, Option.isSome_eq_false_iff, Option.isNone_iff_eq_none] at h
  exact h.symm

@[simp]
theorem isScalar_bare (ty : Descriptor) : ty.bare.kind.isScalar = ty.kind.isScalar := by
  rw [isScalar_eq, isScalar_eq, ofKind?_bare]

@[simp]
theorem unwrapped_bare (ty : Descriptor) : ty.bare.unwrapped = ty.bare := by
  rw [bare_eq, unwrapped_unwrapped]

/-- A pointer is what it points to, unless that is a scalar. -/
theorem bare_pointer {pointee : Descriptor} {key : Option Descriptor} {len : UInt32}
    {name : Option String} (h : pointee.kind.isScalar = false) :
    bare ⟨.pointer, some pointee, key, len, name⟩ = pointee.bare := by
  rw [bare_eq, ofBareParts]
  exact (unwrapped_pointer (by rwa [isScalar_bare])).trans pointee.unwrapped_bare

theorem bare_unwrapped (ty : Descriptor) : ty.unwrapped.bare = ty.bare :=
  eq_of_unwrapped (fun _ _ _ _ h => bare_pointer h) ty

/-- Without pointers only the parts of a type are changed, once its outermost pointers are away. -/
theorem bare_eq_ofBareParts (ty : Descriptor) : ty.bare = ty.unwrapped.ofBareParts := by
  rw [← bare_unwrapped, bare_eq]
  refine unwrapped_of_isScalar fun hkind e helem => ?_
  obtain ⟨e, he, rfl⟩ := Option.map_eq_some_iff.1 helem
  rw [isScalar_bare]
  exact isScalar_of_unwrapped hkind he

end Descriptor

/-- The parts of a type that is in order are in order. -/
structure Inherited (InOrder : Descriptor → Prop) : Prop where
  key : ∀ {ty k}, InOrder ty → ty.key = some k → InOrder k
  elem : ∀ {ty e}, InOrder ty → ty.elem = some e → InOrder e

theorem Inherited.unwrapped {InOrder : Descriptor → Prop} (h : Inherited InOrder) {ty : Descriptor}
    (hty : InOrder ty) : InOrder ty.unwrapped := by
  fun_induction Descriptor.unwrapped ty with
  | case1 => exact hty
  | case2 pointee _ _ _ _ ih => exact ih (h.elem hty rfl)
  | case3 => exact hty

/-- What takes a pointer for what it points to, and goes by the same of the parts, is the same
without pointers. -/
theorem Inherited.eq_of_bare {α : Type} {g : Descriptor → α} {InOrder : Descriptor → Prop}
    (h : Inherited InOrder)
    (hpointer : ∀ pointee key len name, InOrder ⟨.pointer, some pointee, key, len, name⟩ →
      pointee.kind.isScalar = false → g ⟨.pointer, some pointee, key, len, name⟩ = g pointee)
    (hparts : ∀ ty : Descriptor, (∀ e, ty.elem = some e → g e.bare = g e) →
      (∀ k, ty.key = some k → g k.bare = g k) → g ty.ofBareParts = g ty)
    {ty : Descriptor} (hty : InOrder ty) : g ty.bare = g ty := by
  induction ty using Descriptor.partsInduction with
  | step ty ihe ihk =>
    have hty' := hparts ty (fun e he => ihe e he (h.elem hty he))
      (fun k hk => ihk k hk (h.key hty hk))
    rw [Descriptor.bare_eq_ofBareParts]
    fun_cases Descriptor.unwrapped ty with
    | case1 => exact hty'
    | case2 pointee key len name hkind =>
      rw [← Descriptor.bare_eq_ofBareParts, ihe pointee rfl (h.elem hty rfl),
        hpointer pointee key len name hty (eq_false_of_ne_true hkind)]
    | case3 => exact hty'

/-! ## Shapes -/

/-- Changes the types that a shape names. -/
def Shape.mapTypes (f : Descriptor → Descriptor) : Shape → Shape
  | fixedArray len type elem => .fixedArray len (f type) (elem.mapTypes f)
  | dynamicArray type elem => .dynamicArray (f type) (elem.mapTypes f)
  | map keyType valueType key value =>
    .map (f keyType) (f valueType) (key.mapTypes f) (value.mapTypes f)
  | embedded type name => .embedded (f type) name
  | s => s

@[simp]
theorem Shape.layout_mapTypes (f : Descriptor → Descriptor) (s : Shape) :
    (s.mapTypes f).layout = s.layout := by
  induction s with
  | fixedArray _ _ elem ih | dynamicArray _ elem ih => rw [mapTypes, layout, layout, ih]
  | map _ _ key value ihk ihv => rw [mapTypes, layout, layout, ihk, ihv]
  | _ => rfl

/-- The function takes away the pointers of the types that are in order. -/
structure TakesPointers (InOrder : Descriptor → Prop) (f : Descriptor → Descriptor) : Prop extends
    Inherited InOrder where
  eq_bare : ∀ {ty}, InOrder ty → f ty = ty.bare

theorem TakesPointers.apply_unwrapped {InOrder : Descriptor → Prop} {f : Descriptor → Descriptor}
    (h : TakesPointers InOrder f) {ty : Descriptor} (hty : InOrder ty) :
    f ty.unwrapped = ty.bare.unwrapped := by
  rw [h.eq_bare (h.unwrapped hty), Descriptor.bare_unwrapped, Descriptor.unwrapped_bare]

namespace Descriptor

theorem shape_unwrapped (ty : Descriptor) : ty.unwrapped.shape = ty.shape := by
  refine eq_of_unwrapped (fun pointee _ _ _ h => ?_) ty
  rw [isScalar_eq, Option.isSome_eq_false_iff, Option.isNone_iff_eq_none] at h
  rw [shape, h]

theorem shape_ofBareParts (ty : Descriptor) : ty.ofBareParts.shape = ty.bare.shape := by
  rw [bare_eq, shape_unwrapped]

/-- Without pointers a type has the shape that it had, which names types without pointers. -/
theorem shape_bare {InOrder : Descriptor → Prop} {f : Descriptor → Descriptor}
    (h : TakesPointers InOrder f) {ty : Descriptor} (hty : InOrder ty) :
    ty.bare.shape = ty.shape.map (Shape.mapTypes f) := by
  rw [← shape_ofBareParts]
  fun_induction shape ty with
  | case2 _ _ len _ =>
    rw [ofBareParts, shape, Except.map]
    split <;> rfl
  | case4 elem key len name ih =>
    have helem := h.elem hty rfl
    rw [ofBareParts, Option.map_some, shape, ← shape_ofBareParts, ih helem,
      ← h.apply_unwrapped helem]
    cases elem.shape with
    | error e => rfl
    | ok s =>
      simp only [Except.map, ok_bind]
      split <;> rfl
  | case7 value key len name ihk ihv =>
    have hkey := h.key hty rfl
    have hvalue := h.elem hty rfl
    rw [ofBareParts, Option.map_some, Option.map_some, shape, ← shape_ofBareParts,
      ← shape_ofBareParts, ihk hkey, ihv hvalue, ← h.apply_unwrapped hkey,
      ← h.apply_unwrapped hvalue]
    cases key.shape with
    | error e => rfl
    | ok k => cases value.shape <;> rfl
  | case9 pointee _ _ _ scalar hkind =>
    rw [ofBareParts, Option.map_some, shape, ofKind?_bare, hkind]
    rfl
  | case10 pointee key len name hkind ih =>
    rw [ofBareParts, Option.map_some, shape, ofKind?_bare, hkind, ← shape_ofBareParts]
    exact ih (h.elem hty rfl)
  | case11 elem key len name type hname =>
    have hname : name? ⟨.struct, elem.map bare, key.map bare, len, name⟩ = some type := hname
    rw [Except.map, Shape.mapTypes, h.eq_bare hty, bare_eq_ofBareParts]
    simp only [ofBareParts, unwrapped, shape, hname]
  | case12 elem key len name hname =>
    have hname : name? ⟨.struct, elem.map bare, key.map bare, len, name⟩ = none := hname
    simp only [ofBareParts, shape, hname, Except.map]
  | case13 kind elem key len name _ _ _ _ _ _ _ _ _ _ scalar hkind =>
    cases kind <;> cases hkind <;> rfl
  | case14 kind elem key =>
    -- The kinds without a scalar all have a case of their own.
    exfalso
    cases kind <;> cases elem <;> cases key <;> simp_all [Scalar.ofKind?]
  | _ => rfl

theorem inherited_true : Inherited fun _ => True := ⟨fun _ _ => trivial, fun _ _ => trivial⟩

theorem takesPointers_bare : TakesPointers (fun _ => True) bare :=
  ⟨inherited_true, fun _ => rfl⟩

theorem layout_bare (ty : Descriptor) : ty.bare.layout = ty.layout := by
  rw [layout, layout, shape_bare takesPointers_bare trivial]
  cases ty.shape with
  | error e => rfl
  | ok s => exact congrArg Except.ok (s.layout_mapTypes bare)

/-- A type that passes its check passes it without pointers, wherever it stands. -/
theorem check_bare {ty : Descriptor} {location : String} (h : ty.check location = .ok ())
    (place : String) : ty.bare.check place = .ok () := by
  induction ty using partsInduction generalizing location place with
  | step ty ihe ihk =>
    obtain ⟨hflaw, hkey, helem⟩ := check_eq_ok.1 h
    have hparts : ty.ofBareParts.check place = .ok () := by
      refine check_eq_ok.2 ⟨?_, fun bk hbk => ?_, fun be hbe => ?_⟩
      · rw [flaw?_eq_none_iff] at hflaw ⊢
        simpa only [ofBareParts, Option.isSome_map, name?] using hflaw
      · obtain ⟨k, hk, rfl⟩ := Option.map_eq_some_iff.1 hbk
        exact ihk k hk (hkey k hk) _
      · obtain ⟨e, he, rfl⟩ := Option.map_eq_some_iff.1 hbe
        exact ihe e he (helem e he) _
    rw [bare_eq_ofBareParts]
    fun_cases unwrapped ty with
    | case1 => exact hparts
    | case2 pointee =>
      rw [← bare_eq_ofBareParts]
      exact ihe pointee rfl (helem pointee rfl) place
    | case3 => exact hparts

end Descriptor

/-! ## Spellings -/

namespace Native

/-- Without pointers a type has the spelling that it had. -/
theorem typeName_bare (ty : Descriptor) : typeName ty.bare = typeName ty := by
  refine Descriptor.inherited_true.eq_of_bare (fun pointee _ _ _ _ h => ?_) (fun ty he hk => ?_)
    trivial
  · rw [typeName]
    simp [h]
  · obtain ⟨kind, elem, key, len, name⟩ := ty
    rw [typeName.eq_def, typeName.eq_def ⟨kind, elem, key, len, name⟩]
    cases elem <;> cases key <;> simp [Descriptor.ofBareParts, he, hk, Descriptor.name?]

theorem isHashable_bare (ty : Descriptor) : isHashable ty.bare = isHashable ty := by
  refine Descriptor.inherited_true.eq_of_bare (fun pointee _ _ _ _ _ => ?_) (fun ty he _ => ?_)
    trivial
  · rw [isHashable]
  · obtain ⟨kind, elem, key, len, name⟩ := ty
    cases elem with
    | none => cases kind <;> rfl
    | some e =>
      have helem := he e rfl
      cases kind <;> simp [Descriptor.ofBareParts, isHashable, helem]

/-- A field starts with the same without pointers. -/
theorem initial_bare (ty : Descriptor) : initial ty.bare = initial ty := by
  rw [initial, initial, ty.unwrapped_bare, ty.bare_eq_ofBareParts]
  rfl

theorem fieldDecl_bare (f : Field) : fieldDecl ⟨f.name, f.type.bare⟩ = fieldDecl f := by
  rw [fieldDecl, fieldDecl, typeName_bare, f.type.unwrapped_bare, f.type.bare_eq_ofBareParts]
  rfl

end Native

namespace Descriptor

/-- No pointer in the type carries a name. -/
def pointersUnnamed : Descriptor → Bool
  | ⟨kind, elem, key, len, name⟩ =>
    (kind != .pointer || (name? ⟨kind, elem, key, len, name⟩).isNone) &&
    (match key with
      | some k => k.pointersUnnamed
      | none => true) &&
    (match elem with
      | some e => e.pointersUnnamed
      | none => true)

theorem pointersUnnamed_iff {ty : Descriptor} :
    ty.pointersUnnamed = true ↔ (ty.kind = .pointer → ty.name? = none) ∧
      (∀ k, ty.key = some k → k.pointersUnnamed = true) ∧
      ∀ e, ty.elem = some e → e.pointersUnnamed = true := by
  obtain ⟨kind, elem, key, len, name⟩ := ty
  rw [pointersUnnamed.eq_def, Bool.and_eq_true, Bool.and_eq_true, Bool.or_eq_true, bne_iff_ne,
    Option.isNone_iff_eq_none, ← imp_iff_not_or, and_assoc]
  cases key <;> cases elem <;> simp

theorem inherited_pointersUnnamed : Inherited fun ty => ty.pointersUnnamed = true where
  key h hk := (pointersUnnamed_iff.1 h).2.1 _ hk
  elem h he := (pointersUnnamed_iff.1 h).2.2 _ he

/-- Takes away pointers at every node, unless one of them carries a name. -/
def bareUnnamed (ty : Descriptor) : Descriptor := if ty.pointersUnnamed then ty.bare else ty

theorem takesPointers_bareUnnamed :
    TakesPointers (fun ty => ty.pointersUnnamed = true) bareUnnamed :=
  ⟨inherited_pointersUnnamed, fun h => if_pos h⟩

end Descriptor

namespace Managed

/-- Without pointers a type has the spelling that it had, unless a pointer had a name. -/
theorem typeName_bare {ty : Descriptor} (h : ty.pointersUnnamed = true) :
    typeName ty.bare = typeName ty := by
  refine Descriptor.inherited_pointersUnnamed.eq_of_bare (fun pointee key len name h hkind => ?_)
    (fun ty he hk => ?_) h
  · have hname := (Descriptor.pointersUnnamed_iff.1 h).1 rfl
    rw [Descriptor.name?] at hname
    rw [typeName.eq_def]
    simp [hname, hkind]
  · obtain ⟨kind, elem, key, len, name⟩ := ty
    rw [typeName.eq_def, typeName.eq_def ⟨kind, elem, key, len, name⟩]
    cases elem <;> cases key <;> simp [Descriptor.ofBareParts, he, hk]

theorem typeName_bareUnnamed (ty : Descriptor) : typeName ty.bareUnnamed = typeName ty := by
  rw [Descriptor.bareUnnamed]
  split
  next h => exact typeName_bare h
  next => rfl

/-- A field starts with the same without pointers. -/
theorem initializer?_bare {ty : Descriptor} (h : ty.pointersUnnamed = true) :
    initializer? ty.bare = initializer? ty := by
  have hu := Descriptor.inherited_pointersUnnamed.unwrapped h
  have hname : typeName ty.unwrapped.ofBareParts = typeName ty.unwrapped := by
    rw [← Descriptor.bare_eq_ofBareParts, ← Descriptor.bare_unwrapped]
    exact typeName_bare hu
  rw [initializer?, initializer?, Descriptor.unwrapped_bare, Descriptor.bare_eq_ofBareParts]
  -- From here on only the type without its outermost pointers counts.
  generalize ty.unwrapped = u at hu hname
  have helem : (u.elem.map Descriptor.bare).map typeName = u.elem.map typeName := by
    cases he : u.elem with
    | none => rfl
    | some e =>
      exact congrArg some (typeName_bare (Descriptor.inherited_pointersUnnamed.elem hu he))
  simp only [hname]
  simp only [Descriptor.ofBareParts, helem]
  rfl

theorem fieldDecl_bare {f : Field} (h : f.type.pointersUnnamed = true) :
    fieldDecl ⟨f.name, f.type.bare⟩ = fieldDecl f := by
  rw [fieldDecl, fieldDecl, typeName_bare h, initializer?_bare h]

end Managed

end WireSchema
