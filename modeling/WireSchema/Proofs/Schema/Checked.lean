-- What the checks of a document give: every field has a shape, so the document has layouts, and
-- programs when its maps are narrow, and the fields of a struct have names of their own.
import WireSchema.Proofs.Program.Narrow
import WireSchema.Schema.Check

namespace WireSchema

open Outcome

/-! ## Descriptors -/

/-- The structs in a shape bear the names of their descriptors. -/
def Shape.Named : Shape → Prop
  | .fixedArray _ _ elem => elem.Named
  | .dynamicArray _ elem => elem.Named
  | .map _ _ key value => key.Named ∧ value.Named
  | .embedded type name => type.name? = some name
  | _ => True

namespace Descriptor

/-- What holds of a descriptor once it holds of its element and its key, holds of all. -/
@[elab_as_elim]
theorem partsInduction {motive : Descriptor → Prop}
    (step : ∀ ty : Descriptor, (∀ e, ty.elem = some e → motive e) →
      (∀ k, ty.key = some k → motive k) → motive ty) : ∀ ty, motive ty
  | ⟨_, elem, key, _, _⟩ => step _
    (fun e he => match elem, he with | some _, rfl => partsInduction step e)
    (fun k hk => match key, hk with | some _, rfl => partsInduction step k)

/-- A descriptor has no flaw itself when it has an element and a key just where its kind needs them,
and a name where it stands for a struct. -/
theorem flaw?_eq_none_iff {ty : Descriptor} :
    ty.flaw? = none ↔ ty.elem.isSome = ty.kind.needsElem ∧ ty.key.isSome = ty.kind.needsKey ∧
      (ty.kind = .struct → ty.name? ≠ none) := by
  unfold flaw?
  cases ty.elem <;> cases ty.key <;> cases ty.kind.needsElem <;> cases ty.kind.needsKey <;> simp

/-- A descriptor passes when it has no flaw itself, and its key and element pass. -/
theorem check_eq_ok {location : String} {ty : Descriptor} :
    ty.check location = .ok () ↔ ty.flaw? = none ∧
      (∀ k, ty.key = some k → k.check (location ++ ".key") = .ok ()) ∧
      ∀ e, ty.elem = some e → e.check (location ++ ".elem") = .ok () := by
  obtain ⟨kind, elem, key, len, name⟩ := ty
  rw [check.eq_def]
  dsimp only
  cases flaw? ⟨kind, elem, key, len, name⟩ with
  | some f => simp [throw, throwThe, MonadExceptOf.throw, bind, Except.bind]
  | none => cases key <;> cases elem <;> simp [pure, Except.pure, check_bind_eq_ok]

/-- A descriptor that passes has a shape. -/
theorem shape_of_check {location : String} {ty : Descriptor} (h : ty.check location = .ok ()) :
    ∃ s, ty.shape = .ok s ∧ s.Named := by
  fun_induction shape ty generalizing location with
  | case1 => exact ⟨_, rfl, trivial⟩
  | case2 =>
    refine ⟨_, rfl, ?_⟩
    split <;> trivial
  | case3 | case5 | case6 | case8 => cases (check_eq_ok.1 h).1
  | case4 elem _ _ _ ih =>
    obtain ⟨s, hs, hnamed⟩ := ih ((check_eq_ok.1 h).2.2 elem rfl)
    refine ⟨_, by rw [hs]; rfl, ?_⟩
    split <;> exact hnamed
  | case7 value key _ _ ihk ihv =>
    obtain ⟨k, hk, hkey⟩ := ihk ((check_eq_ok.1 h).2.1 key rfl)
    obtain ⟨v, hv, hvalue⟩ := ihv ((check_eq_ok.1 h).2.2 value rfl)
    exact ⟨.map _ _ k v, by rw [hk, hv]; rfl, hkey, hvalue⟩
  | case9 => exact ⟨_, rfl, trivial⟩
  | case10 pointee _ _ _ _ ih => exact ih ((check_eq_ok.1 h).2.2 pointee rfl)
  | case11 _ _ _ _ type hname => exact ⟨_, rfl, hname⟩
  | case12 elem key len name hname =>
    have hflaw := (check_eq_ok.1 h).1
    cases elem <;> cases key <;> simp [flaw?, Kind.needsElem, Kind.needsKey, hname] at hflaw
  | case13 => exact ⟨_, rfl, trivial⟩
  | case14 kind elem key =>
    -- The kinds without a scalar all have a case of their own.
    exfalso
    cases kind <;> cases elem <;> cases key <;> simp_all [Scalar.ofKind?]

end Descriptor

/-! ## Structs -/

/-- A struct and the shapes of its fields. -/
structure StructShape where
  name : String
  fields : List FieldShape
  deriving Inhabited

/-- The layout of a field by its shape. -/
def FieldShape.layout (f : FieldShape) : FieldLayout := ⟨f.name, f.shape.layout⟩

namespace StructShape

/-- The layout of a struct by its shapes. -/
def layout (s : StructShape) : StructLayout := ⟨s.name, s.fields.map FieldShape.layout⟩

/-- The programs of a struct by its shapes, when its maps are narrow. -/
def program (widths : MinWidths) (s : StructShape) : StructProgram where
  typeName := s.name
  fields := s.fields.map FieldShape.layout
  size := programOf Shape.sizeSteps s.fields
  marshal := programOf Shape.marshalOps s.fields
  unmarshal := programOf (Shape.unmarshalOps widths) s.fields

/-- The fields have names of their own, and the structs in them the names of their
descriptors. -/
structure Sound (s : StructShape) : Prop where
  differ : (s.fields.map FieldShape.name).Nodup
  named : ∀ f ∈ s.fields, f.shape.Named

end StructShape

/-- The shapes are those of the struct's fields. -/
structure StructDef.Shaped (s : StructDef) (t : StructShape) : Prop where
  name_eq : t.name = s.name
  fields : List.Forall₂ (fun f g => g.name = f.name ∧ f.type.shape = .ok g.shape) s.fields t.fields

namespace StructDef

theorem Shaped.layout {s : StructDef} {t : StructShape} (h : s.Shaped t) :
    s.layout = .ok t.layout := by
  have hfields : s.fields.mapM (Field.layout s.name) = .ok (t.fields.map FieldShape.layout) := by
    refine mapM_eq_ok.2 (List.forall₂_map_right_iff.2 (h.fields.imp ?_))
    rintro f g ⟨hname, hshape⟩
    rw [Field.layout, Descriptor.layout, hshape, FieldShape.layout, hname]
    rfl
  rw [StructDef.layout, hfields, StructShape.layout, h.name_eq]
  rfl

theorem Shaped.lowerable_iff {s : StructDef} {t : StructShape} (h : s.Shaped t) :
    (∀ f ∈ s.fields, f.Lowerable) ↔ t.layout.NarrowMaps := by
  have hfields : List.Forall₂ (fun f g => f.type.layout = .ok (FieldShape.layout g).layout)
      s.fields t.fields := h.fields.imp fun f g hfg => Field.layout_of_shape hfg.2
  rw [StructLayout.NarrowMaps, StructShape.layout, List.forall_mem_map]
  constructor
  · intro hall g hg
    obtain ⟨f, hf, hlayout⟩ := exists_of_forall₂ hfields g hg
    obtain ⟨l, hl, hmaps⟩ := hall f hf
    cases hlayout.symm.trans hl
    exact hmaps
  · intro hall f hf
    obtain ⟨g, hg, hlayout⟩ := exists_of_forall₂ hfields.flip f hf
    exact ⟨_, hlayout, hall g hg⟩

/-- Fields with narrow maps are measured one after the other, by their shapes. -/
theorem run_measured {owner : String} {fields : List Field} {shapes : List FieldShape}
    (h : List.Forall₂ (fun f g => g.name = f.name ∧ f.type.shape = .ok g.shape) fields shapes)
    (hmaps : ∀ g ∈ shapes, g.shape.layout.NarrowMaps) (n : Nat) :
    ∃ measured next, (fields.mapM (Field.measured owner)).run n = .ok (measured, next) ∧
      measured.map Prod.fst = shapes ∧ measured.flatMap Prod.snd =
        ((shapes.mapM fun (g : FieldShape) =>
          g.shape.sizeSteps (.field g.name)).run n).1.flatten := by
  induction h generalizing n with
  | nil => exact ⟨[], n, rfl, rfl, rfl⟩
  | @cons f g _ _ hfg _ ih =>
    obtain ⟨name, shape⟩ := g
    obtain ⟨rfl, hshape⟩ := hfg
    obtain ⟨hfirst, hrest⟩ := List.forall_mem_cons.1 hmaps
    obtain ⟨measured, next, hrun, hshapes, hops⟩ :=
      ih hrest ((shape.sizeSteps (.field f.name)).run n).2
    refine ⟨(⟨f.name, shape⟩, ((shape.sizeSteps (.field f.name)).run n).1) :: measured, next,
      ?_, ?_, ?_⟩
    · rw [List.mapM_cons, StateT.run_bind, Field.run_measured hshape hfirst, ok_bind,
        StateT.run_bind, hrun]
      rfl
    · rw [List.map_cons, hshapes]
    · rw [List.flatMap_cons, hops, List.mapM_cons]
      rfl

/-- A struct with narrow maps has the programs of its shapes. -/
theorem Shaped.program {s : StructDef} {t : StructShape} (h : s.Shaped t)
    (hmaps : t.layout.NarrowMaps) (widths : MinWidths) :
    s.program widths = .ok (t.program widths) := by
  obtain ⟨measured, next, hrun, hshapes, hops⟩ :=
    run_measured h.fields (fun g hg => hmaps _ (List.mem_map_of_mem hg)) 0
  rw [StructDef.program, hrun, ok_bind]
  simp only [hshapes, hops, StructShape.program, h.name_eq]
  rfl

/-- The first field that cannot be lowered ends the lowering of its struct. -/
theorem program_of_first {s : StructDef} {before after : List Field} {f : Field}
    {e : LoweringError} (hfields : s.fields = before ++ f :: after)
    (hbefore : ∀ g ∈ before, g.Lowerable) (hf : f.Stops s.name e) (widths : MinWidths) :
    s.program widths = .error e := by
  have hrun : (s.fields.mapM (Field.measured s.name)).run 0 = .error e := by
    rw [hfields]
    refine run_mapM_of_first (fun g hg n => ?_) hf.run_measured 0
    obtain ⟨l, hlayout, hmaps⟩ := hbefore g hg
    obtain ⟨shape, hshape, rfl⟩ := map_eq_ok.1 hlayout
    exact ⟨_, Field.run_measured hshape hmaps n⟩
  rw [StructDef.program, hrun]
  rfl

/-- All fields of a struct that has programs can be lowered. -/
theorem lowerable_of_program {s : StructDef} {widths : MinWidths} {p : StructProgram}
    (h : s.program widths = .ok p) : ∀ f ∈ s.fields, f.Lowerable := by
  rcases forall_or_first Field.Lowerable s.fields with hall | ⟨_, f, _, hfields, hbefore, hf⟩
  · exact hall
  · obtain ⟨e, he⟩ := Field.stops_of_not_lowerable s.name hf
    cases (program_of_first hfields hbefore he widths).symm.trans h

/-- Fields that pass have shapes, and names that no field before them has. -/
theorem shapes_of_checkFields {owner : String} {seen : List String} {fields : List Field}
    (h : checkFields owner seen fields = .ok ()) :
    ∃ shapes : List FieldShape,
      List.Forall₂ (fun f g => g.name = f.name ∧ f.type.shape = .ok g.shape) fields shapes ∧
      (shapes.map FieldShape.name).Nodup ∧
      ∀ g ∈ shapes, g.name ∉ seen ∧ g.shape.Named := by
  induction fields generalizing seen with
  | nil => exact ⟨[], .nil, List.nodup_nil, nofun⟩
  | cons f fields ih =>
    simp only [checkFields, stop_eq_ok, check_bind_eq_ok, List.contains_iff_mem] at h
    obtain ⟨-, hnew, hcheck, hrest⟩ := h
    obtain ⟨shape, hshape, hnamed⟩ := Descriptor.shape_of_check hcheck
    obtain ⟨shapes, hshapes, hdiffer, hseen⟩ := ih hrest
    refine ⟨⟨f.name, shape⟩ :: shapes, .cons ⟨rfl, hshape⟩ hshapes, ?_, ?_⟩
    · refine List.nodup_cons.2 ⟨fun hmem => ?_, hdiffer⟩
      obtain ⟨g, hg, hname⟩ := List.mem_map.1 hmem
      exact (hseen g hg).1 (hname ▸ List.mem_cons_self ..)
    · refine List.forall_mem_cons.2 ⟨⟨hnew, hnamed⟩, fun g hg => ?_⟩
      exact ⟨fun hmem => (hseen g hg).1 (List.mem_cons_of_mem _ hmem), (hseen g hg).2⟩

/-- The types of fields that pass, pass. -/
theorem check_of_checkFields {owner : String} {seen : List String} {fields : List Field}
    (h : checkFields owner seen fields = .ok ()) :
    ∀ f ∈ fields, f.type.check (owner ++ "." ++ f.name) = .ok () := by
  induction fields generalizing seen with
  | nil => exact nofun
  | cons f fields ih =>
    simp only [checkFields, stop_eq_ok, check_bind_eq_ok] at h
    obtain ⟨-, -, hcheck, hrest⟩ := h
    exact List.forall_mem_cons.2 ⟨hcheck, ih hrest⟩

theorem check_of_check {package : String} {s : StructDef} (h : s.check package = .ok ()) :
    ∀ f ∈ s.fields, f.type.check (s.name ++ "." ++ f.name) = .ok () := by
  simp only [check, stop_eq_ok] at h
  exact check_of_checkFields h.2

/-- A struct that passes has sound shapes. -/
theorem shaped_of_check {package : String} {s : StructDef} (h : s.check package = .ok ()) :
    ∃ t, s.Shaped t ∧ t.Sound := by
  simp only [check, stop_eq_ok] at h
  obtain ⟨shapes, hshapes, hdiffer, hnamed⟩ := shapes_of_checkFields h.2
  exact ⟨⟨s.name, shapes⟩, ⟨rfl, hshapes⟩, hdiffer, fun g hg => (hnamed g hg).2⟩

/-- A struct has shapes when all its fields have layouts. -/
theorem shaped_of_fields {s : StructDef} (h : ∀ f ∈ s.fields, ∃ l, f.type.layout = .ok l) :
    ∃ t, s.Shaped t := by
  have hfield : ∀ f ∈ s.fields, ∃ shape, f.type.shape = .ok shape := by
    intro f hf
    obtain ⟨l, hl⟩ := h f hf
    obtain ⟨shape, hshape, _⟩ := map_eq_ok.1 hl
    exact ⟨shape, hshape⟩
  have : Inhabited Shape := ⟨.string⟩
  choose! shape hshape using hfield
  refine ⟨⟨s.name, s.fields.map fun f => ⟨f.name, shape f⟩⟩, rfl, ?_⟩
  rw [List.forall₂_map_right_iff, List.forall₂_same]
  exact fun f hf => ⟨rfl, hshape f hf⟩

/-- A struct that has a layout has shapes. -/
theorem shaped_of_layout {s : StructDef} {l : StructLayout} (h : s.layout = .ok l) :
    ∃ t, s.Shaped t := by
  obtain ⟨fields, hfields, -⟩ := bind_eq_ok.1 h
  refine shaped_of_fields fun f hf => ?_
  obtain ⟨g, -, hg⟩ := exists_of_forall₂ (mapM_eq_ok.1 hfields).flip f hf
  cases hlayout : f.type.layout with
  | ok l => exact ⟨l, rfl⟩
  | error e =>
    rw [Field.layout, hlayout] at hg
    cases hg

theorem Shaped.program_eq_ok_iff {s : StructDef} {t : StructShape} (h : s.Shaped t)
    {widths : MinWidths} {p : StructProgram} :
    s.program widths = .ok p ↔ t.layout.NarrowMaps ∧ p = t.program widths := by
  constructor
  · intro hp
    have hmaps := h.lowerable_iff.1 (lowerable_of_program hp)
    exact ⟨hmaps, Except.ok.inj (hp.symm.trans (h.program hmaps widths))⟩
  · rintro ⟨hmaps, rfl⟩
    exact h.program hmaps widths

/-- A struct that has programs has shapes, and narrow maps. -/
theorem shaped_of_program {s : StructDef} {widths : MinWidths} {p : StructProgram}
    (h : s.program widths = .ok p) :
    ∃ t, s.Shaped t ∧ t.layout.NarrowMaps ∧ p = t.program widths := by
  obtain ⟨t, ht⟩ := shaped_of_fields fun f hf => (lowerable_of_program h f hf).imp fun l hl => hl.1
  exact ⟨t, ht, ht.program_eq_ok_iff.1 h⟩

end StructDef

/-! ## Documents -/

namespace Document

/-- The layouts of a document by the shapes of its structs. -/
def layoutOf (doc : Document) (shapes : List StructShape) : DocumentLayout :=
  ⟨layoutVersion, doc.package, .little, shapes.map StructShape.layout⟩

/-- The programs of a document by the shapes of its structs. -/
def programsOf (doc : Document) (shapes : List StructShape) : DocumentProgram :=
  ⟨programVersion, doc.package, shapes.map (StructShape.program (doc.layoutOf shapes).minWidths)⟩

theorem check_of_check {doc : Document} (h : doc.check = .ok ()) :
    ∀ s ∈ doc.messageStructs, s.check doc.package = .ok () := by
  simp only [check, stop_eq_ok, forM_eq_ok] at h
  exact fun s hs => h.2 s (List.mem_of_mem_filter hs)

/-- The shapes of a document's structs give its layouts. -/
theorem layout_of_shaped {doc : Document} {shapes : List StructShape}
    (h : List.Forall₂ StructDef.Shaped doc.messageStructs shapes) :
    doc.layout = .ok (doc.layoutOf shapes) := by
  have hstructs : doc.messageStructs.mapM StructDef.layout =
      .ok (shapes.map StructShape.layout) := by
    rw [mapM_eq_ok, List.forall₂_map_right_iff]
    exact h.imp fun s t hst => hst.layout
  rw [layout, hstructs]
  rfl

/-- A document with narrow maps has the programs of its shapes. -/
theorem program_of_shaped {doc : Document} {shapes : List StructShape}
    (h : List.Forall₂ StructDef.Shaped doc.messageStructs shapes)
    (hmaps : (doc.layoutOf shapes).NarrowMaps) : doc.program = .ok (doc.programsOf shapes) := by
  have hnarrow : ∀ t ∈ shapes, t.layout.NarrowMaps :=
    fun t ht => hmaps t.layout (List.mem_map_of_mem ht)
  have hstructs (widths : MinWidths) : doc.messageStructs.mapM (StructDef.program widths) =
      .ok (shapes.map (StructShape.program widths)) := by
    rw [mapM_eq_ok, List.forall₂_map_right_iff]
    have hboth := (List.forall₂_and_left _ _).2 ⟨hnarrow, h.flip⟩
    exact hboth.flip.imp fun s t ⟨ht, hst⟩ => hst.program ht widths
  rw [program, hstructs, minWidths, layout_of_shaped h]
  rfl

/-- The field is the first of the document, in order of declaration, that has not the property. -/
def IsFirst (doc : Document) (P : Field → Prop) (s : StructDef) (f : Field) : Prop :=
  ∃ before after fields rest, doc.messageStructs = before ++ s :: after ∧
    s.fields = fields ++ f :: rest ∧ (∀ t ∈ before, ∀ g ∈ t.fields, P g) ∧
    (∀ g ∈ fields, P g) ∧ ¬ P f

theorem IsFirst.mem {doc : Document} {P : Field → Prop} {s : StructDef} {f : Field}
    (h : doc.IsFirst P s f) : s ∈ doc.messageStructs ∧ f ∈ s.fields := by
  obtain ⟨before, after, fields, rest, hstructs, hfields, -⟩ := h
  rw [hstructs, hfields]
  exact ⟨List.mem_append_right _ (List.mem_cons_self ..),
    List.mem_append_right _ (List.mem_cons_self ..)⟩

theorem IsFirst.not {doc : Document} {P : Field → Prop} {s : StructDef} {f : Field}
    (h : doc.IsFirst P s f) : ¬ P f := by
  obtain ⟨_, _, _, _, _, _, _, _, hf⟩ := h
  exact hf

theorem forall_or_isFirst (doc : Document) (P : Field → Prop) :
    (∀ s ∈ doc.messageStructs, ∀ f ∈ s.fields, P f) ∨ ∃ s f, doc.IsFirst P s f := by
  rcases forall_or_first (fun s : StructDef => ∀ f ∈ s.fields, P f) doc.messageStructs with
    hall | ⟨before, s, after, hstructs, hbefore, hs⟩
  · exact Or.inl hall
  · rcases forall_or_first P s.fields with hfields | ⟨fields, f, rest, hfields, hearlier, hf⟩
    · exact absurd hfields hs
    · exact Or.inr ⟨s, f, before, after, fields, rest, hstructs, hfields, hbefore, hearlier, hf⟩

/-- The first field that cannot be lowered ends the lowering of a document. -/
theorem program_of_isFirst {doc : Document} {s : StructDef} {f : Field} {e : LoweringError}
    (h : doc.IsFirst Field.Lowerable s f) (hf : f.Stops s.name e) : doc.program = .error e := by
  obtain ⟨before, after, fields, rest, hstructs, hfields, hbefore, hearlier, -⟩ := h
  have hlowered : ∀ t ∈ before, ∃ p, t.program doc.minWidths = .ok p := by
    intro t ht
    have hall := hbefore t ht
    obtain ⟨shapes, hshapes⟩ :=
      StructDef.shaped_of_fields fun g hg => (hall g hg).imp fun l hl => hl.1
    exact ⟨_, hshapes.program (hshapes.lowerable_iff.1 hall) doc.minWidths⟩
  have hstops := StructDef.program_of_first hfields hearlier hf doc.minWidths
  rw [program, hstructs, mapM_of_first hlowered hstops]
  rfl

/-- The maps of a document are narrow when all fields of its structs can be lowered. -/
theorem narrowMaps_of_lowerable {doc : Document} {shapes : List StructShape}
    (h : List.Forall₂ StructDef.Shaped doc.messageStructs shapes)
    (hall : ∀ s ∈ doc.messageStructs, ∀ f ∈ s.fields, f.Lowerable) :
    (doc.layoutOf shapes).NarrowMaps := by
  refine List.forall_mem_map.2 fun t ht => ?_
  obtain ⟨s, hs, hst⟩ := exists_of_forall₂ h t ht
  exact hst.lowerable_iff.1 (hall s hs)

/-- The lowering of a document whose fields all have layouts breaks off when its maps are not all
narrow. -/
theorem overflow_of_shaped {doc : Document} {shapes : List StructShape}
    (h : List.Forall₂ StructDef.Shaped doc.messageStructs shapes)
    (hwide : ¬ (doc.layoutOf shapes).NarrowMaps) : doc.program = .error .overflow := by
  rcases doc.forall_or_isFirst Field.Lowerable with hall | ⟨s, f, hfirst⟩
  · exact absurd (narrowMaps_of_lowerable h hall) hwide
  · obtain ⟨e, he⟩ := Field.stops_of_not_lowerable s.name hfirst.not
    rw [program_of_isFirst hfirst he]
    cases he with
    | wideMap => rfl
    | noLayout hnone =>
      obtain ⟨t, -, hst⟩ := exists_of_forall₂ h.flip s hfirst.mem.1
      obtain ⟨g, -, hg⟩ := exists_of_forall₂ hst.fields.flip f hfirst.mem.2
      cases (Field.layout_of_shape hg.2).symm.trans hnone

theorem program_eq_ok_iff {doc : Document} {shapes : List StructShape}
    (h : List.Forall₂ StructDef.Shaped doc.messageStructs shapes) {p : DocumentProgram} :
    doc.program = .ok p ↔ (doc.layoutOf shapes).NarrowMaps ∧ p = doc.programsOf shapes := by
  by_cases hmaps : (doc.layoutOf shapes).NarrowMaps
  · rw [program_of_shaped h hmaps, Except.ok.injEq, eq_comm]
    exact (and_iff_right hmaps).symm
  · rw [overflow_of_shaped h hmaps]
    exact iff_of_false nofun fun hp => hmaps hp.1

/-- A document has shapes when each of its structs has. -/
theorem shaped_of_structs {doc : Document} (h : ∀ s ∈ doc.messageStructs, ∃ t, s.Shaped t) :
    ∃ shapes : List StructShape, List.Forall₂ StructDef.Shaped doc.messageStructs shapes := by
  choose! shape hshaped using h
  refine ⟨doc.messageStructs.map shape, ?_⟩
  rw [List.forall₂_map_right_iff, List.forall₂_same]
  exact hshaped

/-- The structs of a document that passes have sound shapes. -/
theorem shapes_of_check {doc : Document} (h : doc.check = .ok ()) :
    ∃ shapes : List StructShape, List.Forall₂ StructDef.Shaped doc.messageStructs shapes ∧
      ∀ s ∈ shapes, s.Sound := by
  have hstruct : ∀ s ∈ doc.messageStructs, ∃ t, s.Shaped t ∧ t.Sound := fun s hs =>
    StructDef.shaped_of_check (check_of_check h s hs)
  choose! shape hshaped hsound using hstruct
  refine ⟨doc.messageStructs.map shape, ?_, List.forall_mem_map.2 hsound⟩
  rw [List.forall₂_map_right_iff, List.forall₂_same]
  exact hshaped

/-- A document that passes has layouts by sound shapes, and programs by them when its maps are
narrow. -/
theorem shaped_of_check {doc : Document} (h : doc.check = .ok ()) :
    ∃ shapes : List StructShape, (∀ s ∈ shapes, s.Sound) ∧ doc.layout = .ok (doc.layoutOf shapes) ∧
      ∀ p, doc.program = .ok p ↔ (doc.layoutOf shapes).NarrowMaps ∧ p = doc.programsOf shapes := by
  obtain ⟨shapes, hshapes, hsound⟩ := shapes_of_check h
  exact ⟨shapes, hsound, layout_of_shaped hshapes, fun p => program_eq_ok_iff hshapes⟩

/-- A document that has layouts has shapes, and its layouts go by them. -/
theorem shaped_of_layout {doc : Document} {d : DocumentLayout} (h : doc.layout = .ok d) :
    ∃ shapes : List StructShape, List.Forall₂ StructDef.Shaped doc.messageStructs shapes ∧
      d = doc.layoutOf shapes := by
  obtain ⟨structs, hstructs, hd⟩ := bind_eq_ok.1 h
  obtain ⟨shapes, hshapes⟩ : ∃ shapes : List StructShape,
      List.Forall₂ StructDef.Shaped doc.messageStructs shapes := by
    refine shaped_of_structs fun s hs => ?_
    obtain ⟨l, -, hl⟩ := exists_of_forall₂ (mapM_eq_ok.1 hstructs).flip s hs
    exact StructDef.shaped_of_layout hl
  exact ⟨shapes, hshapes, Except.ok.inj (h.symm.trans (layout_of_shaped hshapes))⟩

/-- A document that has programs has shapes with narrow maps, and its programs go by them. -/
theorem shaped_of_program {doc : Document} {p : DocumentProgram} (h : doc.program = .ok p) :
    ∃ shapes : List StructShape, List.Forall₂ StructDef.Shaped doc.messageStructs shapes ∧
      (doc.layoutOf shapes).NarrowMaps ∧ p = doc.programsOf shapes := by
  obtain ⟨structs, hstructs, -⟩ := bind_eq_ok.1 h
  obtain ⟨shapes, hshapes⟩ : ∃ shapes : List StructShape,
      List.Forall₂ StructDef.Shaped doc.messageStructs shapes := by
    refine shaped_of_structs fun s hs => ?_
    obtain ⟨p, -, hp⟩ := exists_of_forall₂ (mapM_eq_ok.1 hstructs).flip s hs
    obtain ⟨t, ht, -⟩ := StructDef.shaped_of_program hp
    exact ⟨t, ht⟩
  exact ⟨shapes, hshapes, (program_eq_ok_iff hshapes).1 h⟩

/-- A name leads to the same struct among the shapes, the layouts and the programs. -/
theorem get?_layoutOf (doc : Document) (shapes : List StructShape) (type : String) :
    (doc.layoutOf shapes).get? type =
      (shapes.find? (·.name == type)).map StructShape.layout := by
  rw [DocumentLayout.get?, layoutOf, List.find?_map]
  rfl

theorem get?_programsOf (doc : Document) (shapes : List StructShape) (type : String) :
    (doc.programsOf shapes).get? type = (shapes.find? (·.name == type)).map
      (StructShape.program (doc.layoutOf shapes).minWidths) := by
  rw [DocumentProgram.get?, programsOf, List.find?_map]
  rfl

end Document

/-- A document of one struct, with a map from short numbers to numbers. -/
def mapDocument : Document :=
  ⟨"p", [⟨"S", none, [⟨"M", ⟨.map, some (.ofKind .int32), some (.ofKind .uint16), 0, none⟩⟩]⟩]⟩

/-- The layouts of the document with a map. -/
def mapLayout : DocumentLayout :=
  ⟨1, "p", .little, [⟨"S", [⟨"M", .map (.fixed .u16) (.fixed .i32)⟩]⟩]⟩

theorem check_mapDocument : mapDocument.check = .ok () := by
  rfl

theorem layout_mapDocument : mapDocument.layout = .ok mapLayout := by
  rfl

theorem narrowMaps_mapLayout : mapLayout.NarrowMaps := by
  refine List.forall_mem_singleton.2 (List.forall_mem_singleton.2 ⟨trivial, trivial, ?_⟩)
  rintro k v ⟨⟩ ⟨⟩
  decide

/-- A square of numbers: so many rows of so many numbers each. -/
def Descriptor.square (side : UInt32) (kind : Kind) : Descriptor :=
  ⟨.array, some ⟨.array, some (.ofKind kind), none, side, none⟩, none, side, none⟩

def Layout.square (side : UInt32) (scalar : Scalar) : Layout :=
  .fixedArray side (.fixedArray side (.fixed scalar))

/-- A document of one struct, with a map from squares to squares. Each square takes half of the
bytes that a word can count to. -/
def squareMapDocument : Document :=
  ⟨"p", [⟨"S", none, [⟨"M", ⟨.map, some (.square 0x80000000 .uint16),
    some (.square 0x80000000 .uint16), 0, none⟩⟩]⟩]⟩

/-- The layouts of the document with a map of squares. -/
def squareMapLayout : DocumentLayout :=
  ⟨1, "p", .little,
    [⟨"S", [⟨"M", .map (.square 0x80000000 .u16) (.square 0x80000000 .u16)⟩]⟩]⟩

theorem check_squareMapDocument : squareMapDocument.check = .ok () := by
  rfl

theorem layout_squareMapDocument : squareMapDocument.layout = .ok squareMapLayout := by
  rfl

theorem program_squareMapDocument : squareMapDocument.program = .error .overflow := by
  rfl

end WireSchema
