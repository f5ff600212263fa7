-- Programs and code of a document without its pointers. Only readers name types, and their code
-- goes by the spellings of those, which taking away pointers does not change.
import WireSchema.Proofs.Schema.Pointers

namespace WireSchema

open Outcome

/-! ## Programs -/

namespace Op

mutual

/-- Changes the types that a step of a reader names. -/
def mapTypes (f : Descriptor → Descriptor) : Op → Op
  | unmarshalNested target type => .unmarshalNested target (f type)
  | declareLocal var type => .declareLocal var (f type)
  | newList var elem len => .newList var (f elem) len
  | newMap var key value => .newMap var (f key) (f value)
  | loop count index body => .loop count index (mapAllTypes f body)
  | op => op

/-- Changes the types that the steps of a reader name. -/
def mapAllTypes (f : Descriptor → Descriptor) : List Op → List Op
  | [] => []
  | op :: ops => op.mapTypes f :: mapAllTypes f ops

end

theorem mapAllTypes_eq (f : Descriptor → Descriptor) (ops : List Op) :
    mapAllTypes f ops = ops.map (mapTypes f) := by
  induction ops with
  | nil => rfl
  | cons op ops ih => rw [mapAllTypes, ih, List.map_cons]

end Op

namespace Shape

variable (f : Descriptor → Descriptor)

theorem staticWidth_mapTypes (s : Shape) : (s.mapTypes f).staticWidth = s.staticWidth := by
  rw [staticWidth, staticWidth, layout_mapTypes]

/-- Programs that measure name no types. -/
theorem sizeSteps_mapTypes (s : Shape) (place : Place) :
    (s.mapTypes f).sizeSteps place = s.sizeSteps place := by
  unfold sizeSteps
  induction s generalizing place with
  | fixedArray _ _ elem ih | dynamicArray _ elem ih =>
    simp only [mapTypes, sizeOpsM, staticWidth_mapTypes, ih]
  | map _ _ key value ihk ihv => simp only [mapTypes, sizeOpsM, staticWidth_mapTypes, ihk, ihv]
  | _ => rfl

/-- Programs that write name no types. -/
theorem marshalOps_mapTypes (s : Shape) (place : Place) :
    (s.mapTypes f).marshalOps place = s.marshalOps place := by
  induction s generalizing place with
  | fixedArray _ _ elem ih | dynamicArray _ elem ih => simp only [mapTypes, marshalOps, ih]
  | map _ _ key value ihk ihv => simp only [mapTypes, marshalOps, ihk, ihv]
  | _ => rfl

/-- A program that reads names the types of the shape. -/
theorem unmarshalOps_mapTypes (widths : MinWidths) (s : Shape) (place : Place) :
    (s.mapTypes f).unmarshalOps widths place =
      List.map (Op.mapTypes f) <$> s.unmarshalOps widths place := by
  induction s generalizing place with
  | fixedArray _ _ elem ih | dynamicArray _ elem ih =>
    simp [mapTypes, unmarshalOps, ih, Op.mapTypes, Op.mapAllTypes_eq]
  | map _ _ key value ihk ihv =>
    simp [mapTypes, unmarshalOps, ihk, ihv, Op.mapTypes, Op.mapAllTypes_eq]
  | _ => rfl

end Shape

/-- Changes the types that the shape of a field names. -/
def FieldShape.mapTypes (f : Descriptor → Descriptor) (g : FieldShape) : FieldShape :=
  ⟨g.name, g.shape.mapTypes f⟩

/-- Changes the types that the shapes of a struct's fields name. -/
def StructShape.mapTypes (f : Descriptor → Descriptor) (s : StructShape) : StructShape :=
  ⟨s.name, s.fields.map (FieldShape.mapTypes f)⟩

/-- The program of fields whose types are changed, when changing those of one field changes its
steps by `g`. -/
theorem programOf_mapTypes {f : Descriptor → Descriptor} {g : Op → Op}
    {lower : Shape → Place → Lowering (List Op)}
    (h : ∀ s place, lower (s.mapTypes f) place = List.map g <$> lower s place)
    (fields : List FieldShape) :
    programOf lower (fields.map (FieldShape.mapTypes f)) = (programOf lower fields).map g := by
  have hfields : ((fields.map (FieldShape.mapTypes f)).mapM fun field =>
      lower field.shape (.field field.name)) =
      List.map (List.map g) <$> fields.mapM fun field => lower field.shape (.field field.name) := by
    induction fields with
    | nil => rfl
    | cons field fields ih =>
      simp only [List.map_cons, List.mapM_cons, ih, FieldShape.mapTypes, h, bind_map_left, map_bind,
        map_pure]
  rw [programOf, programOf, hfields, List.map_flatten]
  rfl

namespace StructShape

variable (f : Descriptor → Descriptor) (s : StructShape) (widths : MinWidths)

theorem layout_mapTypes : (s.mapTypes f).layout = s.layout := by
  simp [layout, mapTypes, FieldShape.mapTypes, FieldShape.layout, Function.comp_def]

theorem size_mapTypes : ((s.mapTypes f).program widths).size = (s.program widths).size := by
  refine (programOf_mapTypes (g := id) (fun shape place => ?_) s.fields).trans (List.map_id _)
  rw [shape.sizeSteps_mapTypes, List.map_id_fun, id_map]

theorem marshal_mapTypes :
    ((s.mapTypes f).program widths).marshal = (s.program widths).marshal := by
  refine (programOf_mapTypes (g := id) (fun shape place => ?_) s.fields).trans (List.map_id _)
  rw [shape.marshalOps_mapTypes, List.map_id_fun, id_map]

theorem unmarshal_mapTypes : ((s.mapTypes f).program widths).unmarshal =
    (s.program widths).unmarshal.map (Op.mapTypes f) :=
  programOf_mapTypes (Shape.unmarshalOps_mapTypes f widths) s.fields

end StructShape

namespace Native

mutual

theorem unmarshalOp_mapTypes {f : Descriptor → Descriptor}
    (hf : ∀ ty, typeName (f ty) = typeName ty) (op : Op) :
    unmarshalOp (op.mapTypes f) = unmarshalOp op := by
  cases op with
  | unmarshalNested | declareLocal | newMap => simp only [Op.mapTypes, unmarshalOp, hf]
  | newList _ _ len => cases len <;> simp only [Op.mapTypes, unmarshalOp, hf]
  | loop c index body =>
    rw [Op.mapTypes, unmarshalOp, unmarshalOp, Op.mapAllTypes_eq, unmarshalOps_mapTypes hf body]
  | _ => rfl

/-- The code of a reader goes by the spellings of its types. -/
theorem unmarshalOps_mapTypes {f : Descriptor → Descriptor}
    (hf : ∀ ty, typeName (f ty) = typeName ty) (ops : List Op) :
    unmarshalOps (ops.map (Op.mapTypes f)) = unmarshalOps ops := by
  match ops with
  | [] => rfl
  | op :: ops =>
    rw [List.map_cons, unmarshalOps, unmarshalOps, unmarshalOp_mapTypes hf op,
      unmarshalOps_mapTypes hf ops]

end

theorem methods_mapTypes {f : Descriptor → Descriptor} (hf : ∀ ty, typeName (f ty) = typeName ty)
    (s : StructShape) (widths : MinWidths) :
    methods ((s.mapTypes f).program widths) = methods (s.program widths) := by
  rw [methods, methods, sizeMethod, sizeMethod, marshalMethod, marshalMethod, unmarshalMethod,
    unmarshalMethod, s.size_mapTypes, s.marshal_mapTypes, s.unmarshal_mapTypes,
    unmarshalOps_mapTypes hf]
  rfl

end Native

namespace Managed

mutual

theorem op_mapTypes {f : Descriptor → Descriptor} (hf : ∀ ty, typeName (f ty) = typeName ty)
    (o : Op) : op (o.mapTypes f) = op o := by
  cases o with
  | unmarshalNested | declareLocal | newMap => simp only [Op.mapTypes, op, hf]
  | newList _ _ len => cases len <;> simp only [Op.mapTypes, op, hf]
  | loop c index body => rw [Op.mapTypes, op, op, Op.mapAllTypes_eq, ops_mapTypes hf body]
  | _ => rfl

/-- The code of a reader goes by the spellings of its types. -/
theorem ops_mapTypes {f : Descriptor → Descriptor} (hf : ∀ ty, typeName (f ty) = typeName ty)
    (os : List Op) : ops (os.map (Op.mapTypes f)) = ops os := by
  match os with
  | [] => rfl
  | o :: os => rw [List.map_cons, ops, ops, op_mapTypes hf o, ops_mapTypes hf os]

end

end Managed

/-! ## Documents -/

/-- A struct with the pointers of its types taken away. -/
def StructDef.bare (s : StructDef) : StructDef :=
  { s with fields := s.fields.map fun f => ⟨f.name, f.type.bare⟩ }

/-- A document with the pointers of its types taken away. -/
def Document.bare (doc : Document) : Document :=
  { doc with structs := doc.structs.map StructDef.bare }

/-- No pointer in a struct that has a codec carries a name. -/
def Document.PointersUnnamed (doc : Document) : Prop :=
  ∀ s ∈ doc.messageStructs, ∀ f ∈ s.fields, f.type.pointersUnnamed = true

namespace StructDef

/-- Without pointers a struct has the shapes that it had, which name types without pointers. -/
theorem Shaped.bare {InOrder : Descriptor → Prop} {f : Descriptor → Descriptor}
    (h : TakesPointers InOrder f) {s : StructDef} {t : StructShape} (hst : s.Shaped t)
    (hs : ∀ g ∈ s.fields, InOrder g.type) : s.bare.Shaped (t.mapTypes f) := by
  refine ⟨hst.name_eq, ?_⟩
  have hfields := (List.forall₂_and_left _ _).2 ⟨hs, hst.fields⟩
  rw [StructDef.bare, StructShape.mapTypes, List.forall₂_map_left_iff, List.forall₂_map_right_iff]
  refine hfields.imp ?_
  rintro field g ⟨htype, hname, hshape⟩
  refine ⟨hname, ?_⟩
  rw [Descriptor.shape_bare h htype, hshape]
  rfl

theorem checkFields_bare {owner : String} {seen : List String} {fields : List Field}
    (h : checkFields owner seen fields = .ok ()) :
    checkFields owner seen (fields.map fun f => ⟨f.name, f.type.bare⟩) = .ok () := by
  induction fields generalizing seen with
  | nil => rfl
  | cons f fields ih =>
    simp only [List.map_cons, checkFields, stop_eq_ok, check_bind_eq_ok] at h ⊢
    obtain ⟨hblank, hseen, htype, hrest⟩ := h
    exact ⟨hblank, hseen, Descriptor.check_bare htype _, ih hrest⟩

/-- Without pointers a struct that passes its check passes it. -/
theorem check_bare {package : String} {s : StructDef} (h : s.check package = .ok ()) :
    s.bare.check package = .ok () := by
  simp only [check, stop_eq_ok] at h ⊢
  exact ⟨h.1, checkFields_bare h.2⟩

theorem layout_bare (s : StructDef) : s.bare.layout = s.layout := by
  have hfield : (Field.layout s.name ∘ fun f => ⟨f.name, f.type.bare⟩) = Field.layout s.name := by
    funext f
    rw [Function.comp_apply, Field.layout, Field.layout, Descriptor.layout_bare]
  have hfields :
      s.bare.fields.mapM (Field.layout s.name) = s.fields.mapM (Field.layout s.name) := by
    rw [StructDef.bare, List.mapM_map, hfield]
  rw [layout, layout, ← hfields]
  rfl

end StructDef

namespace Native

theorem expressible_bare {s : StructDef} : Expressible s.bare ↔ Expressible s := by
  have hspelled : s.bare.fields.map spelled = s.fields.map spelled := List.map_map
  have hkeys : (∀ f ∈ s.bare.fields, ∃ l, f.type.layout = .ok l ∧ l.KeysExact) ↔
      ∀ f ∈ s.fields, ∃ l, f.type.layout = .ok l ∧ l.KeysExact := by
    simp only [StructDef.bare, List.forall_mem_map, Descriptor.layout_bare]
  constructor
  · intro h
    exact ⟨h.name, hspelled ▸ h.spellings, hkeys.1 h.keys⟩
  · intro h
    exact ⟨h.name, hspelled ▸ h.spellings, hkeys.2 h.keys⟩

/-- Without pointers a sound struct can be expressed when it could. -/
theorem checkStruct_bare {package : String} {s : StructDef} (h : s.check package = .ok ()) :
    checkStruct s.bare = .ok () ↔ checkStruct s = .ok () := by
  rw [(checkStruct_iff h).1, (checkStruct_iff (StructDef.check_bare h)).1, expressible_bare]

theorem structType_bare (s : StructDef) : structType s.bare = structType s := by
  simp only [structType, StructDef.bare, List.map_map, Function.comp_def, fieldDecl_bare,
    initial_bare]

end Native

namespace Managed

theorem classOf_bare {s : StructDef} (h : ∀ f ∈ s.fields, f.type.pointersUnnamed = true)
    {f : Descriptor → Descriptor} (hf : ∀ ty, typeName (f ty) = typeName ty) (t : StructShape)
    (widths : MinWidths) :
    classOf s.bare ((t.mapTypes f).program widths) = classOf s (t.program widths) := by
  have hfields : s.bare.fields.map fieldDecl = s.fields.map fieldDecl := by
    rw [StructDef.bare, List.map_map]
    exact List.map_congr_left fun f hf => fieldDecl_bare (h f hf)
  rw [classOf, classOf, hfields, sizeMethod, sizeMethod, marshalMethod, marshalMethod,
    unmarshalMethod, unmarshalMethod, t.size_mapTypes, t.marshal_mapTypes, t.unmarshal_mapTypes,
    ops_mapTypes hf]
  rfl

end Managed

namespace Document

theorem messageStructs_bare (doc : Document) :
    doc.bare.messageStructs = doc.messageStructs.map StructDef.bare := by
  rw [messageStructs, messageStructs, bare, List.filter_map]
  rfl

theorem layout_bare (doc : Document) : doc.bare.layout = doc.layout := by
  have hstruct : StructDef.layout ∘ StructDef.bare = StructDef.layout :=
    funext StructDef.layout_bare
  rw [layout, layout, messageStructs_bare, List.mapM_map, hstruct]
  rfl

theorem ownCatalog_bare (doc : Document) : doc.bare.ownCatalog = doc.ownCatalog := by
  rw [ownCatalog, ownCatalog, catalog, catalog, messageStructs_bare, List.mapM_map]
  rfl

/-- The programs by the shapes of a document's structs, after a change of the types they name. -/
def changedPrograms (doc : Document) (f : Descriptor → Descriptor) (shapes : List StructShape) :
    DocumentProgram :=
  ⟨programVersion, doc.package,
    shapes.map fun t => (t.mapTypes f).program (doc.layoutOf shapes).minWidths⟩

variable {doc : Document} {InOrder : Descriptor → Prop} {f : Descriptor → Descriptor}

/-- Without pointers the structs of a document have the same shapes, which name types without
pointers. -/
theorem shaped_bare (h : TakesPointers InOrder f)
    (hdoc : ∀ s ∈ doc.messageStructs, ∀ g ∈ s.fields, InOrder g.type) {shapes : List StructShape}
    (hshapes : List.Forall₂ StructDef.Shaped doc.messageStructs shapes) :
    List.Forall₂ StructDef.Shaped doc.bare.messageStructs
      (shapes.map (StructShape.mapTypes f)) := by
  rw [messageStructs_bare, List.forall₂_map_left_iff, List.forall₂_map_right_iff]
  refine ((List.forall₂_and_left _ _).2 ⟨hdoc, hshapes⟩).imp ?_
  rintro s t ⟨hs, hst⟩
  exact hst.bare h hs

theorem layoutOf_bare (doc : Document) (f : Descriptor → Descriptor) (shapes : List StructShape) :
    doc.bare.layoutOf (shapes.map (StructShape.mapTypes f)) = doc.layoutOf shapes := by
  have hstruct : StructShape.layout ∘ StructShape.mapTypes f = StructShape.layout :=
    funext (StructShape.layout_mapTypes f)
  rw [layoutOf, layoutOf, List.map_map, hstruct]
  rfl

/-- Without pointers a document with narrow maps has programs by the same shapes. -/
theorem program_bare (h : TakesPointers InOrder f)
    (hdoc : ∀ s ∈ doc.messageStructs, ∀ g ∈ s.fields, InOrder g.type) {shapes : List StructShape}
    (hshapes : List.Forall₂ StructDef.Shaped doc.messageStructs shapes)
    (hmaps : (doc.layoutOf shapes).NarrowMaps) :
    doc.bare.program = .ok (doc.changedPrograms f shapes) := by
  have hbare := layoutOf_bare doc f shapes
  rw [program_of_shaped (shaped_bare h hdoc hshapes) (hbare ▸ hmaps), programsOf, hbare,
    List.map_map]
  rfl

/-- What is made of each struct and its programs is made of it without pointers. -/
theorem map_zip_bare {α : Type} {g : StructDef → StructProgram → α} {widths : MinWidths}
    (h : ∀ s ∈ doc.messageStructs, ∀ t : StructShape,
      g s.bare ((t.mapTypes f).program widths) = g s (t.program widths))
    (shapes : List StructShape) :
    (doc.bare.messageStructs.zip (shapes.map fun t => (t.mapTypes f).program widths)).map
        (fun (s, p) => g s p) =
      (doc.messageStructs.zip (shapes.map (StructShape.program widths))).map
        (fun (s, p) => g s p) := by
  rw [messageStructs_bare, List.zip_map, List.zip_map_right, List.map_map, List.map_map]
  refine List.map_congr_left ?_
  rintro ⟨s, t⟩ hmem
  exact h s (List.of_mem_zip hmem).1 t

/-- The groups of code of the structs are the same. -/
theorem structGroups_bare (doc : Document) (shapes : List StructShape) :
    Native.structGroups doc.bare (doc.changedPrograms Descriptor.bare shapes) =
      Native.structGroups doc (doc.programsOf shapes) := by
  refine map_zip_bare (g := fun s p => Native.structType s ++ [.blank, Native.methods p])
    (fun s _ t => ?_) shapes
  rw [Native.structType_bare, Native.methods_mapTypes Native.typeName_bare]

theorem classes_bare (hdoc : doc.PointersUnnamed) (shapes : List StructShape) :
    Managed.classes doc.bare (doc.changedPrograms Descriptor.bareUnnamed shapes) =
      Managed.classes doc (doc.programsOf shapes) := by
  refine map_zip_bare (g := fun s p => [Managed.classOf s p]) (fun s hs t => ?_) shapes
  rw [Managed.classOf_bare (hdoc s hs) Managed.typeName_bareUnnamed]

/-- A target that makes the same of the programs makes the same code. Where the lowering breaks off,
it does so with and without pointers. -/
theorem generate_bare {target : Target} (hcheck : target.check doc = .ok ())
    (hbare : target.check doc.bare = .ok ()) (h : TakesPointers InOrder f)
    (hdoc : ∀ s ∈ doc.messageStructs, ∀ g ∈ s.fields, InOrder g.type) {shapes : List StructShape}
    (hshapes : List.Forall₂ StructDef.Shaped doc.messageStructs shapes)
    (hsource : ∀ c, target.source doc.bare c (doc.changedPrograms f shapes) =
      target.source doc c (doc.programsOf shapes)) :
    doc.bare.generate target = doc.generate target := by
  by_cases hmaps : (doc.layoutOf shapes).NarrowMaps
  · rw [generate_of_check hcheck (program_of_shaped hshapes hmaps),
      generate_of_check hbare (program_bare h hdoc hshapes hmaps), ownCatalog_bare, hsource]
  · have hwide := overflow_of_shaped (shaped_bare h hdoc hshapes)
      (layoutOf_bare doc f shapes ▸ hmaps)
    rw [generate, generate, hcheck, hbare, hwide, overflow_of_shaped hshapes hmaps]
    rfl

theorem native_check_iff {path : Option String} : (Target.native path).check doc = .ok () ↔
    ∀ s ∈ doc.messageStructs, Native.checkStruct s = .ok () := by
  rw [Target.check, mapError_eq_ok, forM_eq_ok]

/-- Without pointers a checked document has the same Rust code, if it has any. -/
theorem generate_native_bare (h : doc.check = .ok ()) (path : Option String) (text : String) :
    doc.bare.generate (.native path) = .ok text ↔ doc.generate (.native path) = .ok text := by
  have hcheck : (Target.native path).check doc.bare = .ok () ↔
      (Target.native path).check doc = .ok () := by
    rw [native_check_iff, native_check_iff, messageStructs_bare, List.forall_mem_map]
    exact forall₂_congr fun s hs => Native.checkStruct_bare (check_of_check h s hs)
  by_cases hdoc : (Target.native path).check doc = .ok ()
  · obtain ⟨shapes, hshapes, -⟩ := shapes_of_check h
    rw [generate_bare hdoc (hcheck.2 hdoc) Descriptor.takesPointers_bare (fun _ _ _ _ => trivial)
      hshapes fun c => ?_]
    rw [Target.source, Target.source, Native.source, Native.source, structGroups_bare]
    rfl
  · refine iff_of_false (fun hbare => hdoc (hcheck.1 ?_)) fun hgen => hdoc ?_
    · exact (check_bind_eq_ok.1 hbare).1
    · exact (check_bind_eq_ok.1 hgen).1

/-- Without pointers a checked document has the same C# code, if no pointer carries a name. -/
theorem generate_managed_bare (h : doc.check = .ok ()) (hunnamed : doc.PointersUnnamed)
    (options : Managed.Options) :
    doc.bare.generate (.managed options) = doc.generate (.managed options) := by
  obtain ⟨shapes, hshapes, -⟩ := shapes_of_check h
  refine generate_bare rfl rfl Descriptor.takesPointers_bareUnnamed hunnamed hshapes
    fun c => ?_
  rw [Target.source, Target.source, Managed.source, Managed.source, classes_bare hunnamed]
  rfl

/-- Pointers to anything but scalars are invisible. Taking them away at every node of a type leaves
its layout, its static width, whether it can be a key and its Rust type; taking them away in a
checked document leaves its layouts, its Rust code if it has any, and its C# code if no pointer
carries a name. -/
theorem pointers_are_invisible (doc : Document) :
    (∀ ty : Descriptor, ty.bare.layout = ty.layout ∧ ty.bare.widthOf = ty.widthOf ∧
      Native.isHashable ty.bare = Native.isHashable ty ∧
      Native.typeName ty.bare = Native.typeName ty) ∧
    (doc.check = .ok () → doc.bare.layout = doc.layout ∧
      (∀ path text, doc.bare.generate (.native path) = .ok text ↔
        doc.generate (.native path) = .ok text) ∧
      (doc.PointersUnnamed → ∀ options,
        doc.bare.generate (.managed options) = doc.generate (.managed options))) := by
  refine ⟨fun ty => ⟨ty.layout_bare, ?_, Native.isHashable_bare ty, Native.typeName_bare ty⟩,
    fun h => ⟨doc.layout_bare, generate_native_bare h, generate_managed_bare h⟩⟩
  rw [Descriptor.widthOf, Descriptor.widthOf, Descriptor.layoutByLevels_eq,
    Descriptor.layoutByLevels_eq, ty.layout_bare]

end Document

/-- A pointer to a type. -/
def Descriptor.pointerTo (ty : Descriptor) : Descriptor := ⟨.pointer, some ty, none, 0, none⟩

/-- A document of one struct with a list of structs. -/
def listDocument (wrap : Descriptor → Descriptor) : Document :=
  ⟨"p", [⟨"Node", none, [⟨"Next",
    wrap ⟨.array, some (wrap ⟨.struct, none, none, 0, some "Node"⟩), none, 0, none⟩⟩]⟩]⟩

/-- A list of structs has the same code with pointers around the list and around each struct. -/
theorem listDocument_pointerTo :
    (listDocument .pointerTo).generate (.managed {}) = (listDocument id).generate (.managed {}) ∧
    ∀ text, (listDocument .pointerTo).generate (.native none) = .ok text ↔
      (listDocument id).generate (.native none) = .ok text := by
  have hbare : (listDocument .pointerTo).bare = listDocument id := by rfl
  have hunnamed : (listDocument .pointerTo).PointersUnnamed := by
    intro s hs f hf
    cases List.mem_singleton.1 hs
    cases List.mem_singleton.1 hf
    rfl
  obtain ⟨-, hnative, hmanaged⟩ := (Document.pointers_are_invisible (listDocument .pointerTo)).2 rfl
  rw [hbare] at hnative hmanaged
  exact ⟨(hmanaged hunnamed {}).symm, fun text => (hnative none text).symm⟩

end WireSchema
