-- Lowering level by level. A pass classifies the outermost level of a type and goes on with the
-- types inside it, so a nested type is classified for its layout, by each pass, and again wherever
-- a pass asks for a width. All of them fail on the same types and for the same reason, except that
-- the pass that measures breaks off at a map whose two widths no word has together. What they put
-- out is what lowering by shapes puts out.
import WireSchema.Generate
import WireSchema.Proofs.Schema.Checked

namespace WireSchema

open Outcome

/-! ## Levels of a type -/

/-- The types inside a level. -/
def Strategy.inner : Strategy → List Descriptor
  | fixedArray _ elem | dynamicArray elem => [elem]
  | map key value => [key, value]
  | _ => []

namespace Descriptor

/-- The types inside a level are smaller than the type. -/
theorem sizeOf_lt_of_classify {ty : Descriptor} {level : Strategy} (h : ty.classify = .ok level)
    {part : Descriptor} (hpart : part ∈ level.inner) : sizeOf part < sizeOf ty := by
  fun_induction classify ty with
  | case4 elem _ len _ =>
    cases h
    have hpart : part = elem := by
      split at hpart <;> exact List.mem_singleton.1 hpart
    subst hpart
    simp
    omega
  | case7 value key _ _ =>
    cases h
    rcases List.mem_pair.1 hpart with rfl | rfl <;> simp <;> omega
  | case10 pointee _ _ _ _ ih =>
    have := ih h
    simp
    omega
  | case2 =>
    cases h
    split at hpart <;> cases hpart
  | _ => cases h <;> cases hpart

/-- The layout of a type, level by level. -/
def layoutByLevels (ty : Descriptor) : Except LayoutError Layout :=
  match _h : ty.classify with
  | .error e => .error e
  | .ok (.fixed scalar) => .ok (.fixed scalar)
  | .ok (.nullable scalar) => .ok (.nullable scalar)
  | .ok .string => .ok .string
  | .ok (.fixedBytes len) => .ok (.fixedBytes len)
  | .ok .dynamicBytes => .ok .dynamicBytes
  | .ok (.fixedArray len elem) => do
    return .fixedArray len (← elem.layoutByLevels)
  | .ok (.dynamicArray elem) => do
    return .dynamicArray (← elem.layoutByLevels)
  | .ok (.map key value) => do
    return .map (← key.layoutByLevels) (← value.layoutByLevels)
  | .ok (.embedded type) => .ok (.embedded type)
termination_by sizeOf ty
decreasing_by all_goals exact sizeOf_lt_of_classify _h (by simp [Strategy.inner])

/-- The kinds that are no scalars are those without a scalar. -/
theorem isScalar_of_ofKind?_eq_none {kind : Kind} (h : Scalar.ofKind? kind = none) :
    kind.isScalar = false := by
  cases kind <;> first | rfl | cases h

/-- What takes a pointer for what it points to is the same without outermost pointers. -/
theorem eq_of_unwrapped {α : Type} {g : Descriptor → α}
    (hg : ∀ pointee key len name, pointee.kind.isScalar = false →
      g ⟨.pointer, some pointee, key, len, name⟩ = g pointee) (ty : Descriptor) :
    g ty.unwrapped = g ty := by
  fun_induction unwrapped ty with
  | case1 => rfl
  | case2 pointee key len name hkind ih =>
    rw [ih, hg pointee key len name (eq_false_of_ne_true hkind)]
  | case3 => rfl

theorem unwrapped_pointer {pointee : Descriptor} {key : Option Descriptor} {len : UInt32}
    {name : Option String} (h : pointee.kind.isScalar = false) :
    unwrapped ⟨.pointer, some pointee, key, len, name⟩ = pointee.unwrapped := by
  rw [unwrapped, h]
  rfl

theorem classify_of_ofKind? {ty : Descriptor} {scalar : Scalar}
    (h : Scalar.ofKind? ty.kind = some scalar) : ty.classify = .ok (.fixed scalar) := by
  obtain ⟨kind, elem, key, len, name⟩ := ty
  cases kind <;> cases h <;> rfl

/-- The shape of a level, from the shapes of the types inside it. -/
def levelShape (ty : Descriptor) : Strategy → Except LayoutError Shape
  | .fixed scalar => .ok (.fixed scalar)
  | .nullable scalar => .ok (.nullable scalar)
  | .string => .ok .string
  | .fixedBytes len => .ok (.fixedBytes len)
  | .dynamicBytes => .ok .dynamicBytes
  | .fixedArray len elem => do return .fixedArray len elem.unwrapped (← elem.shape)
  | .dynamicArray elem => do return .dynamicArray elem.unwrapped (← elem.shape)
  | .map key value => do
    return .map key.unwrapped value.unwrapped (← key.shape) (← value.shape)
  | .embedded name => .ok (.embedded ty.unwrapped name)

theorem shape_eq_classify (ty : Descriptor) : ty.shape = ty.classify >>= ty.levelShape := by
  fun_induction shape ty with
  | case10 pointee key len name hkind ih =>
    have hunwrapped : unwrapped ⟨.pointer, some pointee, key, len, name⟩ = pointee.unwrapped :=
      unwrapped_pointer (isScalar_of_ofKind?_eq_none hkind)
    have hlevel : levelShape ⟨.pointer, some pointee, key, len, name⟩ = pointee.levelShape := by
      funext level
      cases level with
      | embedded => rw [levelShape, levelShape, hunwrapped]
      | _ => rfl
    rw [ih, classify, hkind, hlevel]
  | case2 _ _ len =>
    rw [classify, ok_bind]
    split <;> rfl
  | case4 _ _ len =>
    rw [classify, ok_bind]
    split <;> rfl
  | case9 _ _ _ _ _ hkind =>
    rw [classify, hkind]
    rfl
  | case11 _ _ _ _ _ hname | case12 _ _ _ _ hname =>
    rw [classify, hname]
    rfl
  | case13 kind _ _ _ _ _ _ _ _ _ _ _ _ _ _ scalar hkind =>
    rw [classify_of_ofKind? hkind]
    rfl
  | case14 kind elem key =>
    -- The kinds without a scalar all have a case of their own.
    exfalso
    cases kind <;> cases elem <;> cases key <;> simp_all [Scalar.ofKind?]
  | _ => rfl

/-- Taking a type level by level gives the layout of its shape. -/
theorem layoutByLevels_eq (ty : Descriptor) : ty.layoutByLevels = ty.layout := by
  -- Arrays and maps are the levels with types inside, in the seventh to the ninth case here and
  -- for every pass below.
  fun_induction layoutByLevels ty with
  | case7 ty _ elem h ih | case8 ty elem h ih =>
    rw [ih, layout, layout, shape_eq_classify ty, h, ok_bind, levelShape]
    cases elem.shape <;> rfl
  | case9 ty key value h ihk ihv =>
    rw [ihk, ihv, layout, layout, layout, shape_eq_classify ty, h, ok_bind, levelShape]
    cases key.shape with
    | error e => rfl
    | ok k => cases value.shape <;> rfl
  | _ =>
    rename_i h
    rw [layout, shape_eq_classify, h]
    rfl

end Descriptor

/-! ## Passes -/

/-- What stops a pass over a type. -/
inductive PassError where
  | layout (e : LayoutError)
  | overflow

/-- What stops the lowering when a pass over the type of a field stops. -/
def PassError.inField (owner field : String) : PassError → LoweringError
  | layout e => .field owner field e
  | overflow => .overflow

/-- A pass over a type numbers its temporaries. It stops where the type lacks something, or where no
word has a sum of widths. -/
abbrev Pass := StateT Nat (Except PassError)

/-- What a part of a pass finds in a type. -/
def Pass.find {α : Type} (x : Except LayoutError α) : Pass α := fun n =>
  match x with
  | .ok a => .ok (a, n)
  | .error e => .error (.layout e)

namespace Descriptor

/-- The width of every value of a type, when it has one. -/
def widthOf (ty : Descriptor) : Except LayoutError (Option UInt64) :=
  return (← ty.layoutByLevels).staticWidth

/-- The fewest bytes of a value of a type. -/
def minWidthOf (widths : MinWidths) (ty : Descriptor) : Except LayoutError UInt64 :=
  return (← ty.layoutByLevels).minWidth widths.get

/-- The steps that add the size of the value at a place. -/
def sizePass (ty : Descriptor) (place : Place) : Pass (List Op) :=
  match _h : ty.classify with
  | .error e => Pass.find (.error e)
  | .ok (.fixed scalar) => return [.addSize (.const (.ofNat scalar.width))]
  | .ok (.nullable scalar) =>
    return [.addSize (.const (.ofNat flagWidth)),
      .addSize (.optional place (.ofNat scalar.width))]
  | .ok .string =>
    return [.addSize (.const (.ofNat countWidth)), .addSize (.utf8Len place)]
  | .ok (.fixedBytes len) => return [.addSize (.const len.toUInt64)]
  | .ok .dynamicBytes =>
    return [.addSize (.const (.ofNat countWidth)), .addSize (.byteLen place)]
  | .ok (.fixedArray len elem) => do
    match (← Pass.find elem.widthOf).bind (Width.checkedMul · len.toUInt64) with
    | some bytes => return [.addSize (.const bytes)]
    | none =>
      let item ← Lowering.fresh "item"
      let body ← elem.sizePass (.temp item)
      return [.forEach place item body]
  | .ok (.dynamicArray elem) => do
    match ← Pass.find elem.widthOf with
    | some width =>
      return [.addSize (.const (.ofNat countWidth)), .addSize (.countTimes place width)]
    | none =>
      let item ← Lowering.fresh "item"
      let body ← elem.sizePass (.temp item)
      return [.addSize (.const (.ofNat countWidth)), .forEach place item body]
  | .ok (.map key value) => do
    match ← Pass.find key.widthOf, ← Pass.find value.widthOf with
    | some k, some v =>
      let width ← addWidths PassError.overflow k v
      return [.addSize (.const (.ofNat countWidth)), .addSize (.countTimes place width)]
    | _, _ =>
      let k ← Lowering.fresh "key"
      let v ← Lowering.fresh "val"
      let keyOps ← key.sizePass (.temp k)
      let valueOps ← value.sizePass (.temp v)
      return [.addSize (.const (.ofNat countWidth)), .forEachEntry place k v (keyOps ++ valueOps)]
  | .ok (.embedded _) => return [.addSize (.nested place)]
termination_by sizeOf ty
decreasing_by all_goals exact sizeOf_lt_of_classify _h (by simp [Strategy.inner])

/-- The steps that write the value at a place. -/
def marshalPass (ty : Descriptor) (place : Place) : Pass (List Op) :=
  match _h : ty.classify with
  | .error e => Pass.find (.error e)
  | .ok (.fixed scalar) => return [.writeScalar scalar place]
  | .ok (.nullable scalar) => return [.writeNullable scalar place]
  | .ok .string => return [.writeString place]
  | .ok (.fixedBytes len) => return [.writeBytes place (some len)]
  | .ok .dynamicBytes => return [.writeBytes place none]
  | .ok (.fixedArray len elem) => do
    let item ← Lowering.fresh "item"
    let body ← elem.marshalPass (.temp item)
    return [.checkLen place len, .forEach place item body]
  | .ok (.dynamicArray elem) => do
    let item ← Lowering.fresh "item"
    let body ← elem.marshalPass (.temp item)
    return [.writeCount place, .forEach place item body]
  | .ok (.map key value) => do
    let k ← Lowering.fresh "key"
    let v ← Lowering.fresh "val"
    let keyOps ← key.marshalPass (.temp k)
    let valueOps ← value.marshalPass (.temp v)
    return [.writeCount place, .forEachEntry place k v (keyOps ++ valueOps)]
  | .ok (.embedded _) => return [.marshalNested place]
termination_by sizeOf ty
decreasing_by all_goals exact sizeOf_lt_of_classify _h (by simp [Strategy.inner])

/-- The steps that read a value into a place. -/
def unmarshalPass (widths : MinWidths) (ty : Descriptor) (place : Place) : Pass (List Op) :=
  match _h : ty.classify with
  | .error e => Pass.find (.error e)
  | .ok (.fixed scalar) => return [.readScalar scalar place]
  | .ok (.nullable scalar) => return [.readNullable scalar place]
  | .ok .string => return [.readString place]
  | .ok (.fixedBytes len) => return [.readBytes place (some len)]
  | .ok .dynamicBytes => return [.readBytes place none]
  | .ok (.fixedArray len elem) => do
    let list ← Lowering.fresh "list"
    let index ← Lowering.fresh "i"
    let item ← Lowering.fresh "item"
    let ops ← elem.unmarshalPass widths (.temp item)
    let body := .declareLocal item elem.unwrapped :: ops ++ [.append list item (some index)]
    return [.newList list elem.unwrapped (.fixed len), .loop (.fixed len) index body,
      .assign place list]
  | .ok (.dynamicArray elem) => do
    let count ← Lowering.fresh "count"
    let width ← Pass.find (elem.minWidthOf widths)
    let list ← Lowering.fresh "list"
    let index ← Lowering.fresh "i"
    let item ← Lowering.fresh "item"
    let ops ← elem.unmarshalPass widths (.temp item)
    let body := .declareLocal item elem.unwrapped :: ops ++ [.append list item none]
    return [.readCount count width, .newList list elem.unwrapped (.var count),
      .loop (.var count) index body, .assign place list]
  | .ok (.map key value) => do
    let count ← Lowering.fresh "count"
    let width := Width.saturatingAdd (← Pass.find (key.minWidthOf widths))
      (← Pass.find (value.minWidthOf widths))
    let m ← Lowering.fresh "map"
    let index ← Lowering.fresh "i"
    let k ← Lowering.fresh "key"
    let v ← Lowering.fresh "val"
    let keyOps ← key.unmarshalPass widths (.temp k)
    let valueOps ← value.unmarshalPass widths (.temp v)
    let body := .declareLocal k key.unwrapped :: keyOps ++
      .declareLocal v value.unwrapped :: valueOps ++ [.insert m k v]
    return [.readCount count width, .newMap m key.unwrapped value.unwrapped,
      .loop (.var count) index body, .assign place m]
  | .ok (.embedded _) => return [.unmarshalNested place ty.unwrapped]
termination_by sizeOf ty
decreasing_by all_goals exact sizeOf_lt_of_classify _h (by simp [Strategy.inner])

end Descriptor

/-! ## Passes by shapes -/

namespace Pass

variable {α β : Type}

/-- Lowering that numbers temporaries and cannot fail, as a pass. -/
def ofLowering (m : Lowering α) : Pass α := fun n => .ok (m.run n)

/-- A pass by shape: it stops where the shape is missing, and else lowers the shape. -/
def ofShape (shape : Except LayoutError Shape) (lower : Shape → Pass α) : Pass α := do
  lower (← find shape)

theorem ofShape_pure (s : Shape) (lower : Shape → Pass α) :
    ofShape (pure s) lower = lower s := rfl

theorem find_ok_bind (a : α) (f : α → Pass β) : (find (.ok a) >>= f) = f a := rfl

end Pass

namespace Descriptor

theorem widthOf_eq (ty : Descriptor) : ty.widthOf = ty.shape.map Shape.staticWidth := by
  rw [widthOf, layoutByLevels_eq, layout]
  cases ty.shape <;> rfl

theorem minWidthOf_eq (widths : MinWidths) (ty : Descriptor) :
    ty.minWidthOf widths = ty.shape.map (·.layout.minWidth widths.get) := by
  rw [minWidthOf, layoutByLevels_eq, layout]
  cases ty.shape <;> rfl

/-- The pass that measures stops where the shape is missing, and else measures the shape. -/
theorem sizePass_eq (ty : Descriptor) (place : Place) :
    ty.sizePass place = Pass.ofShape ty.shape (·.sizeOpsM (addWidths .overflow) place) := by
  fun_induction sizePass ty place with
  | case7 ty place len elem h ih =>
    rw [shape_eq_classify ty, h, ok_bind, levelShape, widthOf_eq]
    simp only [ih]
    cases elem.shape with
    | error e => rfl
    | ok s =>
      rw [Except.map, Pass.find_ok_bind, ok_bind, Pass.ofShape_pure, Shape.sizeOpsM]
      cases s.staticWidth.bind (Width.checkedMul · len.toUInt64) <;> rfl
  | case8 ty place elem h ih =>
    rw [shape_eq_classify ty, h, ok_bind, levelShape, widthOf_eq]
    simp only [ih]
    cases elem.shape with
    | error e => rfl
    | ok s =>
      rw [Except.map, Pass.find_ok_bind, ok_bind, Pass.ofShape_pure, Shape.sizeOpsM]
      cases s.staticWidth <;> rfl
  | case9 ty place key value h ihk ihv =>
    rw [shape_eq_classify ty, h, ok_bind, levelShape, widthOf_eq, widthOf_eq]
    simp only [ihk, ihv]
    cases key.shape with
    | error e => rfl
    | ok k =>
      cases value.shape with
      | error e => rfl
      | ok v =>
        simp only [Except.map, Pass.find_ok_bind, ok_bind, Pass.ofShape_pure, Shape.sizeOpsM]
        cases k.staticWidth with
        | none => rfl
        | some kw => cases v.staticWidth <;> rfl
  | _ =>
    rename_i h
    rw [shape_eq_classify, h]
    rfl

theorem marshalPass_eq (ty : Descriptor) (place : Place) :
    ty.marshalPass place =
      Pass.ofShape ty.shape fun s => .ofLowering (s.marshalOps place) := by
  fun_induction marshalPass ty place with
  | case7 ty _ _ elem h ih | case8 ty _ elem h ih =>
    rw [shape_eq_classify ty, h, ok_bind, levelShape]
    simp only [ih]
    cases elem.shape <;> rfl
  | case9 ty place key value h ihk ihv =>
    rw [shape_eq_classify ty, h, ok_bind, levelShape]
    simp only [ihk, ihv]
    cases key.shape with
    | error e => rfl
    | ok k => cases value.shape <;> rfl
  | _ =>
    rename_i h
    rw [shape_eq_classify, h]
    rfl

theorem unmarshalPass_eq (widths : MinWidths) (ty : Descriptor) (place : Place) :
    ty.unmarshalPass widths place =
      Pass.ofShape ty.shape fun s => .ofLowering (s.unmarshalOps widths place) := by
  fun_induction unmarshalPass widths ty place with
  | case7 ty place len elem h ih =>
    rw [shape_eq_classify ty, h, ok_bind, levelShape]
    simp only [ih]
    cases elem.shape <;> rfl
  | case8 ty place elem h ih =>
    rw [shape_eq_classify ty, h, ok_bind, levelShape]
    simp only [ih, minWidthOf_eq]
    cases elem.shape <;> rfl
  | case9 ty place key value h ihk ihv =>
    rw [shape_eq_classify ty, h, ok_bind, levelShape]
    simp only [ihk, ihv, minWidthOf_eq]
    cases key.shape with
    | error e => rfl
    | ok k => cases value.shape <;> rfl
  | _ =>
    rename_i h
    rw [shape_eq_classify, h]
    rfl

end Descriptor

/-! ## Structs and documents -/

/-- The steps that a pass has put out so far, and its next number. -/
abbrev Emitted := List Op × Nat

/-- One more field of a pass. -/
def Emitted.field (out : Emitted) (pass : Pass (List Op)) : Except PassError Emitted := do
  let (ops, next) ← pass.run out.2
  return (out.1 ++ ops, next)

/-- What three passes over the fields of a struct have put out so far, with the layouts of the
fields. Each pass has numbers of its own. -/
structure Passes where
  fields : List FieldLayout
  size : Emitted
  marshal : Emitted
  unmarshal : Emitted

/-- Nothing is put out yet. -/
def Passes.start : Passes := ⟨[], ([], 0), ([], 0), ([], 0)⟩

/-- One more field of a struct: its layout, and then each pass in turn. -/
def Passes.field (widths : MinWidths) (out : Passes) (f : Field) : Except PassError Passes := do
  let layout ← f.type.layoutByLevels.mapError .layout
  let size ← out.size.field (f.type.sizePass (.field f.name))
  let marshal ← out.marshal.field (f.type.marshalPass (.field f.name))
  let unmarshal ← out.unmarshal.field (f.type.unmarshalPass widths (.field f.name))
  return ⟨out.fields ++ [⟨f.name, layout⟩], size, marshal, unmarshal⟩

/-- The programs of a struct, level by level. The first field that fails names the error. -/
def StructDef.programByLevels (widths : MinWidths) (s : StructDef) :
    Except LoweringError StructProgram := do
  let out ← s.fields.foldlM
    (fun out f => (out.field widths f).mapError (PassError.inField s.name f.name)) Passes.start
  return ⟨s.name, out.fields, out.size.1, out.marshal.1, out.unmarshal.1⟩

/-- The programs of a document, level by level. -/
def Document.programByLevels (doc : Document) : Except LoweringError DocumentProgram := do
  return ⟨programVersion, doc.package,
    ← doc.messageStructs.mapM (StructDef.programByLevels doc.minWidths)⟩

/-! ## Lowering by shapes -/

/-- One more field, by lowering that cannot fail. -/
def Emitted.add (out : Emitted) (m : Lowering (List Op)) : Emitted :=
  let (ops, next) := m.run out.2
  (out.1 ++ ops, next)

theorem Emitted.field_of_run {out : Emitted} {pass : Pass (List Op)} {m : Lowering (List Op)}
    (h : pass.run out.2 = .ok (m.run out.2)) : out.field pass = .ok (out.add m) := by
  rw [field, h]
  rfl

/-- One more field of a struct, by its shape. -/
def Passes.add (widths : MinWidths) (out : Passes) (g : FieldShape) : Passes where
  fields := out.fields ++ [g.layout]
  size := out.size.add (g.shape.sizeSteps (.field g.name))
  marshal := out.marshal.add (g.shape.marshalOps (.field g.name))
  unmarshal := out.unmarshal.add (g.shape.unmarshalOps widths (.field g.name))

namespace Passes

variable {widths : MinWidths} {out : Passes} {f : Field}

/-- A field with narrow maps passes, and adds what its shape does. -/
theorem field_of_shape {s : Shape} (hshape : f.type.shape = .ok s) (hmaps : s.layout.NarrowMaps) :
    out.field widths f = .ok (out.add widths ⟨f.name, s⟩) := by
  have hlayout : f.type.layoutByLevels = .ok s.layout := by
    rw [Descriptor.layoutByLevels_eq, Field.layout_of_shape hshape]
  have hsize : out.size.field (f.type.sizePass (.field f.name)) =
      .ok (out.size.add (s.sizeSteps (.field f.name))) := by
    rw [Descriptor.sizePass_eq, hshape]
    exact Emitted.field_of_run (Shape.run_sizeOpsM_of_narrow _ hmaps _ _)
  rw [field, hlayout, hsize, Descriptor.marshalPass_eq, Descriptor.unmarshalPass_eq, hshape]
  rfl

/-- A field that cannot be lowered stops the passes with its error. -/
theorem field_of_stops {owner : String} {e : LoweringError} (h : f.Stops owner e) :
    (out.field widths f).mapError (PassError.inField owner f.name) = .error e := by
  cases h with
  | noLayout hlayout =>
    rw [field, Descriptor.layoutByLevels_eq, hlayout]
    rfl
  | wideMap hlayout hwide =>
    obtain ⟨s, hshape, rfl⟩ := map_eq_ok.1 hlayout
    have hsize : out.size.field (f.type.sizePass (.field f.name)) = .error .overflow := by
      rw [Descriptor.sizePass_eq, hshape, Emitted.field]
      change ((s.sizeOpsM _ _).run _ >>= _) = _
      rw [Shape.run_sizeOpsM_of_wide _ hwide]
      rfl
    rw [field, Descriptor.layoutByLevels_eq, hlayout, hsize]
    rfl

/-- Fields with narrow maps pass one after the other, by their shapes. -/
theorem foldlM_field {owner : String} {fields : List Field} {shapes : List FieldShape}
    (h : List.Forall₂ (fun f g => g.name = f.name ∧ f.type.shape = .ok g.shape) fields shapes)
    (hmaps : ∀ g ∈ shapes, g.shape.layout.NarrowMaps) (out : Passes) :
    fields.foldlM
        (fun out f => (out.field widths f).mapError (PassError.inField owner f.name)) out =
      .ok (shapes.foldl (Passes.add widths) out) := by
  induction h generalizing out with
  | nil => rfl
  | @cons f g _ _ hfg _ ih =>
    obtain ⟨name, shape⟩ := g
    obtain ⟨rfl, hshape⟩ := hfg
    obtain ⟨hfirst, hrest⟩ := List.forall_mem_cons.1 hmaps
    rw [List.foldlM_cons, field_of_shape hshape hfirst]
    exact ih hrest _

end Passes

/-- Field by field, the numbers of temporaries go on as in a program of all fields. -/
theorem foldl_emitted (lower : Shape → Place → Lowering (List Op)) (fields : List FieldShape)
    (out : Emitted) :
    let all := (fields.mapM fun g => lower g.shape (.field g.name)).run out.2
    fields.foldl (fun out g => out.add (lower g.shape (.field g.name))) out =
      (out.1 ++ all.1.flatten, all.2) := by
  induction fields generalizing out with
  | nil =>
    rw [List.mapM_nil]
    exact Prod.ext (List.append_nil _).symm rfl
  | cons g fields ih =>
    rw [List.foldl_cons, List.mapM_cons]
    exact (ih _).trans (Prod.ext (List.append_assoc ..) rfl)

theorem foldl_passes (widths : MinWidths) (fields : List FieldShape) (out : Passes) :
    fields.foldl (Passes.add widths) out =
      ⟨out.fields ++ fields.map FieldShape.layout,
        fields.foldl (fun out g => out.add (g.shape.sizeSteps (.field g.name))) out.size,
        fields.foldl (fun out g => out.add (g.shape.marshalOps (.field g.name))) out.marshal,
        fields.foldl (fun out g => out.add (g.shape.unmarshalOps widths (.field g.name)))
          out.unmarshal⟩ := by
  induction fields generalizing out with
  | nil => rw [List.map_nil, List.append_nil]; rfl
  | cons g fields ih =>
    rw [List.foldl_cons, ih, Passes.add, List.append_assoc]
    rfl

theorem fst_foldl_emitted (lower : Shape → Place → Lowering (List Op)) (fields : List FieldShape) :
    (fields.foldl (fun out g => Emitted.add out (lower g.shape (.field g.name))) ([], 0)).1 =
      programOf lower fields := by
  rw [foldl_emitted]
  rfl

/-- Lowering a struct level by level gives its programs by shapes. -/
theorem StructDef.programByLevels_eq (widths : MinWidths) (s : StructDef) :
    s.programByLevels widths = s.program widths := by
  rcases forall_or_first Field.Lowerable s.fields with
    hall | ⟨before, f, after, hfields, hbefore, hf⟩
  · obtain ⟨t, ht⟩ := shaped_of_fields fun f hf => (hall f hf).imp fun l hl => hl.1
    have hmaps := ht.lowerable_iff.1 hall
    rw [ht.program hmaps, programByLevels,
      Passes.foldlM_field ht.fields fun g hg => hmaps _ (List.mem_map_of_mem hg)]
    simp only [Passes.start, foldl_passes, ok_bind, fst_foldl_emitted, List.nil_append,
      ← ht.name_eq]
    rfl
  · obtain ⟨e, he⟩ := Field.stops_of_not_lowerable s.name hf
    have hstops : s.fields.foldlM (fun out f =>
        (Passes.field widths out f).mapError (PassError.inField s.name f.name)) .start =
          .error e := by
      rw [hfields]
      refine foldlM_of_first ?_ ?_ _
      · intro g hg out
        obtain ⟨l, hlayout, hmaps⟩ := hbefore g hg
        obtain ⟨shape, hshape, rfl⟩ := map_eq_ok.1 hlayout
        rw [Passes.field_of_shape hshape hmaps]
        exact ⟨_, rfl⟩
      · exact fun out => Passes.field_of_stops he
    rw [program_of_first hfields hbefore he, programByLevels, hstops]
    rfl

theorem Document.programByLevels_eq (doc : Document) : doc.programByLevels = doc.program := by
  have hstruct : StructDef.programByLevels doc.minWidths = StructDef.program doc.minWidths :=
    funext fun s => s.programByLevels_eq doc.minWidths
  rw [programByLevels, program, hstruct]

/-! ## Layouts and programs fail together -/

/-- Every pass over a type succeeds exactly where its layout is found, and else fails for the same
reason. Only measuring breaks off, where a map in the layout is not narrow. -/
theorem Descriptor.passes_fail_together (ty : Descriptor) (widths : MinWidths) (place : Place)
    (n : Nat) :
    verdict ty.widthOf = verdict ty.layoutByLevels ∧
      verdict (ty.minWidthOf widths) = verdict ty.layoutByLevels ∧
      verdict ((ty.marshalPass place).run n) = (verdict ty.layoutByLevels).mapError .layout ∧
      verdict ((ty.unmarshalPass widths place).run n) =
        (verdict ty.layoutByLevels).mapError .layout ∧
      (∀ e, ty.layoutByLevels = .error e → (ty.sizePass place).run n = .error (.layout e)) ∧
      ∀ l, ty.layoutByLevels = .ok l → (l.NarrowMaps ∧ ∃ r, (ty.sizePass place).run n = .ok r) ∨
        ¬ l.NarrowMaps ∧ (ty.sizePass place).run n = .error .overflow := by
  rw [widthOf_eq, minWidthOf_eq, sizePass_eq, marshalPass_eq, unmarshalPass_eq, layoutByLevels_eq,
    layout]
  cases ty.shape with
  | error e =>
    refine ⟨rfl, rfl, rfl, rfl, ?_, ?_⟩
    · rintro _ ⟨⟩
      rfl
    · rintro _ ⟨⟩
  | ok s =>
    refine ⟨rfl, rfl, rfl, rfl, ?_, ?_⟩
    · rintro _ ⟨⟩
    rintro _ ⟨⟩
    exact (s.run_sizeOpsM PassError.overflow place n).imp_left fun h => ⟨h.1, _, h.2⟩

namespace Document

variable {doc : Document}

/-- A field without a layout ends the layouts of a document as it ends the lowering. -/
theorem layout_of_isFirst {s : StructDef} {f : Field} {cause : LayoutError}
    (h : doc.IsFirst Field.Lowerable s f) (hf : f.type.layout = .error cause) :
    doc.layout = .error (.field s.name f.name cause) := by
  obtain ⟨before, after, fields, rest, hstructs, hfields, hbefore, hearlier, -⟩ := h
  have hlaidOut : ∀ t ∈ before, ∃ l, t.layout = .ok l := by
    intro t ht
    obtain ⟨shapes, hshapes⟩ :=
      StructDef.shaped_of_fields fun g hg => (hbefore t ht g hg).imp fun l hl => hl.1
    exact ⟨_, hshapes.layout⟩
  have hstops : s.layout = .error (.field s.name f.name cause) := by
    have hfield : Field.layout s.name f = .error (.field s.name f.name cause) := by
      rw [Field.layout, hf]
    rw [StructDef.layout, hfields, mapM_of_first (fun g hg => ?_) hfield]
    · rfl
    · obtain ⟨l, hl, _⟩ := hearlier g hg
      rw [Field.layout, hl]
      exact ⟨_, rfl⟩
  rw [layout, hstructs, mapM_of_first hlaidOut hstops]
  rfl

theorem generate_of_program {p : DocumentProgram} (h : doc.program = .ok p)
    (options : Managed.Options) : ∃ text, doc.generate (.managed options) = .ok text := by
  refine ⟨Code.render (Target.managed options).indent
    ((Target.managed options).source doc doc.ownCatalog p), ?_⟩
  rw [generate, h]
  rfl

theorem generate_of_overflow (h : doc.program = .error .overflow) (options : Managed.Options) :
    doc.generate (.managed options) = .error (.lowering .overflow) := by
  rw [generate, h]
  rfl

/-- Classifying, lowering and checking agree but for maps that are not narrow. No pass fails on a
type whose layout is found, except that measuring breaks off at a map whose two widths no word has
together, and lowering level by level gives the programs of a document. Where all maps are narrow,
the layouts and the programs are there for the same structs with the same fields. Otherwise the
first field that cannot be lowered decides: without a layout, it and the reason are named in both
errors, and with a layout, lowering breaks off. A document that passes its check has layouts, and it
has programs and source code exactly when its maps are narrow. -/
theorem layouts_programs_and_check_agree_on_narrow_maps (doc : Document) :
    (∀ ty widths place n, verdict (Descriptor.widthOf ty) = verdict ty.layoutByLevels ∧
      verdict (ty.minWidthOf widths) = verdict ty.layoutByLevels ∧
      verdict ((ty.marshalPass place).run n) = (verdict ty.layoutByLevels).mapError .layout ∧
      verdict ((ty.unmarshalPass widths place).run n) =
        (verdict ty.layoutByLevels).mapError .layout ∧
      (∀ e, ty.layoutByLevels = .error e → (ty.sizePass place).run n = .error (.layout e)) ∧
      ∀ l, ty.layoutByLevels = .ok l → (l.NarrowMaps ∧ ∃ r, (ty.sizePass place).run n = .ok r) ∨
        ¬ l.NarrowMaps ∧ (ty.sizePass place).run n = .error .overflow) ∧
    (∀ ty, Descriptor.layoutByLevels ty = ty.layout) ∧
    doc.programByLevels = doc.program ∧
    ((∃ d p, doc.layout = .ok d ∧ d.NarrowMaps ∧ doc.program = .ok p ∧
        d.structs = p.types.map fun t => ⟨t.typeName, t.fields⟩) ∨
      ∃ s f, doc.IsFirst Field.Lowerable s f ∧
        ((∃ cause, f.type.layout = .error cause ∧
            doc.layout = .error (.field s.name f.name cause) ∧
            doc.program = .error (.field s.name f.name cause)) ∨
          ∃ l, f.type.layout = .ok l ∧ ¬ l.NarrowMaps ∧ doc.program = .error .overflow)) ∧
    (doc.check = .ok () → ∃ d, doc.layout = .ok d ∧
      (d.NarrowMaps → (∃ p, doc.program = .ok p) ∧
        ∀ options, ∃ text, doc.generate (.managed options) = .ok text) ∧
      (¬ d.NarrowMaps → doc.program = .error .overflow ∧
        ∀ options, doc.generate (.managed options) = .error (.lowering .overflow))) := by
  refine ⟨Descriptor.passes_fail_together, Descriptor.layoutByLevels_eq, doc.programByLevels_eq,
    ?_, fun hcheck => ?_⟩
  · rcases doc.forall_or_isFirst Field.Lowerable with hall | ⟨s, f, hfirst⟩
    · obtain ⟨shapes, hshapes⟩ : ∃ shapes : List StructShape,
          List.Forall₂ StructDef.Shaped doc.messageStructs shapes :=
        shaped_of_structs fun s hs =>
          StructDef.shaped_of_fields fun f hf => (hall s hs f hf).imp fun l hl => hl.1
      have hmaps := narrowMaps_of_lowerable hshapes hall
      refine Or.inl ⟨_, _, layout_of_shaped hshapes, hmaps, program_of_shaped hshapes hmaps, ?_⟩
      rw [programsOf, List.map_map]
      rfl
    · obtain ⟨e, he⟩ := Field.stops_of_not_lowerable s.name hfirst.not
      have hprogram := program_of_isFirst hfirst he
      refine Or.inr ⟨s, f, hfirst, ?_⟩
      cases he with
      | noLayout hnone => exact Or.inl ⟨_, hnone, layout_of_isFirst hfirst hnone, hprogram⟩
      | wideMap hlayout hwide => exact Or.inr ⟨_, hlayout, hwide, hprogram⟩
  · obtain ⟨shapes, hshapes, _⟩ := shapes_of_check hcheck
    refine ⟨_, layout_of_shaped hshapes, fun hmaps => ?_, fun hwide => ?_⟩
    · have hprogram := program_of_shaped hshapes hmaps
      exact ⟨⟨_, hprogram⟩, generate_of_program hprogram⟩
    · have hprogram := overflow_of_shaped hshapes hwide
      exact ⟨hprogram, generate_of_overflow hprogram⟩

/-- A document whose second field is an array without elements. -/
def hollowDocument : Document :=
  ⟨"p", [⟨"S", none, [⟨"N", .ofKind .uint8⟩, ⟨"A", .ofKind .array⟩]⟩]⟩

/-- A document with a map has source code, and one with a hollow array has neither layouts nor
programs, both for the want of its elements. -/
theorem a_map_is_lowered_and_a_hollow_array_is_not :
    mapDocument.check = .ok () ∧
      (∃ text, mapDocument.generate (.managed {}) = .ok text) ∧
      hollowDocument.layout = .error (.field "S" "A" (.missingElem .array)) ∧
      hollowDocument.program = .error (.field "S" "A" (.missingElem .array)) := by
  obtain ⟨d, hd, hnarrow, _⟩ :=
    (layouts_programs_and_check_agree_on_narrow_maps mapDocument).2.2.2.2 check_mapDocument
  cases layout_mapDocument.symm.trans hd
  obtain ⟨_, hgenerate⟩ := hnarrow narrowMaps_mapLayout
  have hlayout : hollowDocument.layout = .error (.field "S" "A" (.missingElem .array)) := by rfl
  obtain ⟨_, _, _, hagree, _⟩ := layouts_programs_and_check_agree_on_narrow_maps hollowDocument
  refine ⟨check_mapDocument, hgenerate {}, hlayout, ?_⟩
  rcases hagree with
    ⟨d, _, hd, _⟩ | ⟨s, f, hfirst, ⟨cause, _, hfault, hprogram⟩ | ⟨l, hl, hwide, _⟩⟩
  · cases hlayout.symm.trans hd
  · obtain ⟨hs, hf, hcause⟩ := LayoutError.field.inj (Except.error.inj (hlayout.symm.trans hfault))
    rw [← hs, ← hf, ← hcause] at hprogram
    exact hprogram
  · obtain ⟨hs, hf⟩ := hfirst.mem
    cases List.mem_singleton.1 hs
    rcases List.mem_pair.1 hf with rfl | rfl
    · cases hl
      exact absurd trivial hwide
    · cases hl

/-- A map of large squares has layouts and passes its check, but has neither programs nor source
code. -/
theorem a_map_of_squares_has_layouts_only :
    squareMapDocument.check = .ok () ∧ squareMapDocument.layout = .ok squareMapLayout ∧
      (¬ ∃ p, squareMapDocument.program = .ok p) ∧
      squareMapDocument.generate (.managed {}) = .error (.lowering .overflow) := by
  refine ⟨check_squareMapDocument, layout_squareMapDocument, ?_,
    generate_of_overflow program_squareMapDocument {}⟩
  rintro ⟨p, hp⟩
  cases program_squareMapDocument.symm.trans hp

end Document

end WireSchema
