-- The code of programs that read is consistent in its types. A back end spells a type in three
-- places: for a field by its descriptor, for a temporary by the descriptor inside a container, and
-- for a list or map from the spellings of its parts. Wherever a step brings two of them together,
-- they are the same text.
import WireSchema.Managed.Source
import WireSchema.Native.Source
import WireSchema.Proofs.Program.WellFormed
import WireSchema.Proofs.Program.Levels
import WireSchema.Proofs.Schema.Checked
import WireSchema.Proofs.Wire.Normal

namespace WireSchema

open Outcome

/-! ## Declarations -/

/-- How a back end spells types. -/
structure Spelling where
  /-- The type of a descriptor. -/
  type : Descriptor → String
  /-- The type of a list of elements, which has its length from the start or grows. -/
  list : Bool → String → String
  /-- The type of a map of keys and values. -/
  map : String → String → String
  /-- The type of a scalar that is read. -/
  scalar : Scalar → String
  /-- The type of a scalar that may be absent. -/
  nullable : Scalar → String
  text : String
  bytes : String

/-- What a place is declared as: its type, and the types of its elements or of its keys and values
when it is made as a list or map. -/
structure Declared where
  type : String
  parts : List String

namespace Spelling

variable (sp : Spelling)

/-- A place for values of a descriptor. -/
def placeOf (type : Descriptor) : Declared := ⟨sp.type type, []⟩

/-- A list made for elements of a type. -/
def listOf (sized : Bool) (elem : String) : Declared := ⟨sp.list sized elem, [elem]⟩

/-- A map made for keys and values of two types. -/
def mapOf (key value : String) : Declared := ⟨sp.map key value, [key, value]⟩

end Spelling

/-- The schema fixes the count. -/
def Count.isFixed : Count → Bool
  | fixed _ => true
  | var _ => false

namespace Op

/-- The temporary that a step declares with a type. -/
def declares (sp : Spelling) : Op → Option (String × Declared)
  | declareLocal var type => some (var, sp.placeOf type)
  | newList var elem len => some (var, sp.listOf len.isFixed (sp.type elem))
  | newMap var key value => some (var, sp.mapOf (sp.type key) (sp.type value))
  | _ => none

/-- The types that a step brings together are the same: what it reads or makes has the type of its
target, and what it stores has the type that the list or map was made for. -/
def Typed (sp : Spelling) (declared : Place → Option Declared) : Op → Prop
  | readScalar scalar target => (declared target).map (·.type) = some (sp.scalar scalar)
  | readNullable scalar target => (declared target).map (·.type) = some (sp.nullable scalar)
  | readString target => (declared target).map (·.type) = some sp.text
  | readBytes target _ => (declared target).map (·.type) = some sp.bytes
  | unmarshalNested target type => (declared target).map (·.type) = some (sp.type type)
  | assign target var => ∃ d, declared (.temp var) = some d ∧
      (declared target).map (·.type) = some d.type
  | append list item index => ∃ d, declared (.temp item) = some d ∧
      declared (.temp list) = some (sp.listOf index.isSome d.type)
  | insert map key value => ∃ k v, declared (.temp key) = some k ∧ declared (.temp value) = some v ∧
      declared (.temp map) = some (sp.mapOf k.type v.type)
  | _ => True

end Op

/-- What the places of a program of a struct are declared as. -/
def StructDef.declared (sp : Spelling) (s : StructDef) (ops : List Op) : Place → Option Declared
  | .field name => (s.fields.map fun f => (f.name, sp.placeOf f.type)).lookup name
  | .temp name => ((Op.allSteps ops).filterMap (Op.declares sp)).lookup name

/-! ## Steps by shapes -/

/-- Values of the shape can stand at a place of the type: the type is spelled as the shape asks, all
the way down. -/
def Shape.Spelled (sp : Spelling) : Shape → String → Prop
  | fixed scalar, type => type = sp.scalar scalar
  | nullable scalar, type => type = sp.nullable scalar
  | string, type => type = sp.text
  | fixedBytes _, type | dynamicBytes, type => type = sp.bytes
  | fixedArray _ elemType elem, type =>
    type = sp.list true (sp.type elemType) ∧ elem.Spelled sp (sp.type elemType)
  | dynamicArray elemType elem, type =>
    type = sp.list false (sp.type elemType) ∧ elem.Spelled sp (sp.type elemType)
  | map keyType valueType key value, type =>
    type = sp.map (sp.type keyType) (sp.type valueType) ∧
      key.Spelled sp (sp.type keyType) ∧ value.Spelled sp (sp.type valueType)
  | embedded structType _, type => type = sp.type structType

namespace Op

theorem forall_allSteps_nil {P : Op → Prop} : (∀ o ∈ allSteps [], P o) ↔ True := by
  rw [allSteps_nil]
  exact iff_true_intro (List.forall_mem_nil P)

theorem forall_allSteps_cons {P : Op → Prop} {op : Op} {ops : List Op} :
    (∀ o ∈ allSteps (op :: ops), P o) ↔
      P op ∧ (∀ o ∈ allSteps op.body, P o) ∧ ∀ o ∈ allSteps ops, P o := by
  rw [allSteps_cons, List.forall_mem_cons, List.forall_mem_append]

theorem forall_allSteps_append {P : Op → Prop} {ops more : List Op} :
    (∀ o ∈ allSteps (ops ++ more), P o) ↔
      (∀ o ∈ allSteps ops, P o) ∧ ∀ o ∈ allSteps more, P o := by
  rw [allSteps_append, List.forall_mem_append]

variable {sp : Spelling} {declared : Place → Option Declared} {place : Place} {ops : List Op}

/-- Every temporary that a program declares is known as such. -/
def Known (sp : Spelling) (declared : Place → Option Declared) (ops : List Op) : Prop :=
  ∀ op ∈ allSteps ops, ∀ d, op.declares sp = some d → declared (.temp d.1) = some d.2

/-- A list that is made, filled by a loop and put into its place. -/
theorem typed_filled {count : Count} {type : Descriptor} {list i item : String}
    {index : Option String} (hindex : index.isSome = count.isFixed)
    (hplace : (declared place).map (·.type) = some (sp.list count.isFixed (sp.type type)))
    (hknown : Known sp declared [newList list type count,
      loop count i (declareLocal item type :: ops ++ [append list item index]), assign place list])
    (hops : Known sp declared ops → (declared (.temp item)).map (·.type) = some (sp.type type) →
      ∀ op ∈ allSteps ops, op.Typed sp declared) :
    ∀ op ∈ allSteps [newList list type count,
      loop count i (declareLocal item type :: ops ++ [append list item index]), assign place list],
      op.Typed sp declared := by
  simp only [Known, Typed, forall_allSteps_nil, forall_allSteps_cons, forall_allSteps_append,
    List.cons_append, body, true_and, and_true] at hknown ⊢
  obtain ⟨hlist, -, ⟨hitem, hknown, -⟩, -⟩ := hknown
  have hlist : declared (.temp list) = some (sp.listOf count.isFixed (sp.type type)) :=
    hlist _ rfl
  have hitem : declared (.temp item) = some (sp.placeOf type) := hitem _ rfl
  refine ⟨⟨hops hknown ?_, _, hitem, ?_⟩, _, hlist, hplace⟩
  · rw [hitem]
    rfl
  · rw [hlist, hindex]
    rfl

/-- A map that is made, filled by a loop and put into its place. -/
theorem typed_entries {count : Count} {keyType valueType : Descriptor} {m i key value : String}
    {more : List Op}
    (hplace : (declared place).map (·.type) = some (sp.map (sp.type keyType) (sp.type valueType)))
    (hknown : Known sp declared [newMap m keyType valueType,
      loop count i (declareLocal key keyType :: ops ++ declareLocal value valueType :: more ++
        [insert m key value]), assign place m])
    (hops : Known sp declared ops → (declared (.temp key)).map (·.type) = some (sp.type keyType) →
      ∀ op ∈ allSteps ops, op.Typed sp declared)
    (hmore : Known sp declared more →
      (declared (.temp value)).map (·.type) = some (sp.type valueType) →
      ∀ op ∈ allSteps more, op.Typed sp declared) :
    ∀ op ∈ allSteps [newMap m keyType valueType,
      loop count i (declareLocal key keyType :: ops ++ declareLocal value valueType :: more ++
        [insert m key value]), assign place m], op.Typed sp declared := by
  simp only [Known, Typed, forall_allSteps_nil, forall_allSteps_cons, forall_allSteps_append,
    List.cons_append, body, true_and, and_true] at hknown ⊢
  obtain ⟨hmap, -, ⟨hkey, ⟨hkeyKnown, hvalue, hvalueKnown⟩, -⟩, -⟩ := hknown
  have hmap : declared (.temp m) = some (sp.mapOf (sp.type keyType) (sp.type valueType)) :=
    hmap _ rfl
  have hkey : declared (.temp key) = some (sp.placeOf keyType) := hkey _ rfl
  have hvalue : declared (.temp value) = some (sp.placeOf valueType) := hvalue _ rfl
  refine ⟨⟨⟨hops hkeyKnown ?_, hmore hvalueKnown ?_⟩, _, _, hkey, hvalue, hmap⟩, _, hmap, hplace⟩
  · rw [hkey]
    rfl
  · rw [hvalue]
    rfl

/-- The steps that read into a place fit the types of all places, when the place has the type of
the shape and the temporaries of the steps are known. -/
theorem typed_unmarshalOps (widths : MinWidths) {s : Shape} {type : String}
    (hs : s.Spelled sp type) (hplace : (declared place).map (·.type) = some type) (n : Nat)
    (hknown : Known sp declared ((s.unmarshalOps widths place).run n).1) :
    ∀ op ∈ allSteps ((s.unmarshalOps widths place).run n).1, op.Typed sp declared := by
  induction s generalizing type place n with
  | fixed | nullable | string | fixedBytes | dynamicBytes | embedded =>
    refine forall_allSteps_cons.2 ⟨?_, forall_allSteps_nil.2 trivial, forall_allSteps_nil.2 trivial⟩
    rw [Typed, hplace, hs]
  | fixedArray len elemType elem ih =>
    obtain ⟨rfl, helem⟩ := hs
    -- An element is read into the item that the loop declares, after three names were given out.
    refine typed_filled rfl hplace hknown fun hops hitem => ?_
    exact ih helem hitem (n + 3) hops
  | dynamicArray elemType elem ih =>
    obtain ⟨rfl, helem⟩ := hs
    obtain ⟨-, -, hknown⟩ := forall_allSteps_cons.1 hknown
    refine forall_allSteps_cons.2 ⟨trivial, forall_allSteps_nil.2 trivial, ?_⟩
    refine typed_filled rfl hplace hknown fun hops hitem => ?_
    exact ih helem hitem (n + 4) hops
  | map keyType valueType key value ihk ihv =>
    obtain ⟨rfl, hkey, hvalue⟩ := hs
    obtain ⟨-, -, hknown⟩ := forall_allSteps_cons.1 hknown
    refine forall_allSteps_cons.2 ⟨trivial, forall_allSteps_nil.2 trivial, ?_⟩
    refine typed_entries hplace hknown (fun hops hk => ?_) fun hmore hv => ?_
    · exact ihk hkey hk (n + 5) hops
    · exact ihv hvalue hv _ hmore

/-- The steps of all fields fit the types of all places, when each field has the type of its
shape. -/
theorem typed_fields (widths : MinWidths) {fields : List FieldShape}
    (hfields : ∀ f ∈ fields, ∃ type, f.shape.Spelled sp type ∧
      (declared (.field f.name)).map (·.type) = some type) (n : Nat)
    (hknown : Known sp declared ((fields.mapM fun (f : FieldShape) =>
      f.shape.unmarshalOps widths (.field f.name)).run n).1.flatten) :
    ∀ op ∈ allSteps ((fields.mapM fun (f : FieldShape) =>
      f.shape.unmarshalOps widths (.field f.name)).run n).1.flatten, op.Typed sp declared := by
  induction fields generalizing n with
  | nil => exact forall_allSteps_nil.2 trivial
  | cons f fields ih =>
    obtain ⟨⟨type, hspelled, hplace⟩, hrest⟩ := List.forall_mem_cons.1 hfields
    rw [List.mapM_cons] at hknown ⊢
    obtain ⟨hfirst, hlater⟩ := forall_allSteps_append.1 hknown
    refine forall_allSteps_append.2 ⟨?_, ?_⟩
    · exact typed_unmarshalOps widths hspelled hplace n hfirst
    · exact ih hrest _ hlater

/-! ## Programs of structs -/

theorem leaves_of_declares {op : Op} {d : String × Declared} (h : op.declares sp = some d) :
    op.leaves = [d.1] := by
  cases op <;> cases h <;> rfl

/-- The temporaries that are declared are among those that are bound. -/
theorem declared_sublist_bound (steps : List Op) :
    ((steps.filterMap (declares sp)).map Prod.fst).Sublist
      (steps.flatMap fun op => op.opens ++ op.leaves) := by
  induction steps with
  | nil => exact List.Sublist.slnil
  | cons op steps ih =>
    rw [List.flatMap_cons]
    cases h : op.declares sp with
    | none =>
      rw [List.filterMap_cons_none h]
      exact ih.trans (List.sublist_append_right _ _)
    | some d =>
      rw [List.filterMap_cons_some h, List.map_cons, leaves_of_declares h, List.append_assoc]
      exact (ih.cons_cons d.1).trans (List.sublist_append_right _ _)

/-- Where temporaries have names of their own, each is declared as its step says. -/
theorem known_declared (s : StructDef) {ops : List Op} (h : (bound ops).Nodup) :
    Known sp (s.declared sp ops) ops := by
  intro op hop d hd
  refine lookup_of_nodup ?_ (List.mem_filterMap.2 ⟨op, hop, hd⟩)
  exact h.sublist (declared_sublist_bound _)

end Op

namespace StructDef

variable {sp : Spelling} {s : StructDef} {t : StructShape}

theorem Shaped.names (h : s.Shaped t) : t.fields.map FieldShape.name = s.fields.map Field.name := by
  rw [← List.forall₂_eq_eq_eq, List.forall₂_map_left_iff, List.forall₂_map_right_iff]
  exact h.fields.flip.imp fun g f hfg => hfg.1

theorem declared_field (h : (s.fields.map Field.name).Nodup) {f : Field} (hf : f ∈ s.fields)
    (ops : List Op) : s.declared sp ops (.field f.name) = some (sp.placeOf f.type) := by
  refine lookup_of_nodup ?_ (List.mem_map.2 ⟨f, hf, rfl⟩)
  rwa [List.map_map]

theorem Shaped.differ (h : s.Shaped t) (ht : t.Sound) : (s.fields.map Field.name).Nodup := by
  rw [← h.names]
  exact ht.differ

/-- A program that reads a struct declares each temporary once, so its places are known. -/
theorem known_program (s : StructDef) (t : StructShape) (widths : MinWidths) :
    Op.Known sp (s.declared sp (t.program widths).unmarshal) (t.program widths).unmarshal := by
  have hnames : ∀ f ∈ t.fields, f.name ∈ t.fields.map FieldShape.name := fun f hf =>
    List.mem_map_of_mem hf
  exact Op.known_declared s (Op.wellFormed_programOf
    (fun shape _ n hplace => shape.lowered_unmarshalOps widths hplace n) hnames).differ

/-- A program that reads a struct is typed, when the spelling of each field's type is that of its
shape. -/
theorem Shaped.typed (h : s.Shaped t) (ht : t.Sound) (widths : MinWidths)
    (hspelled : ∀ f ∈ s.fields, ∀ shape, f.type.shape = .ok shape →
      shape.Spelled sp (sp.type f.type)) :
    ∀ op ∈ Op.allSteps (t.program widths).unmarshal,
      op.Typed sp (s.declared sp (t.program widths).unmarshal) := by
  refine Op.typed_fields widths (fun g hg => ?_) 0 (known_program s t widths)
  obtain ⟨f, hf, hname, hshape⟩ := exists_of_forall₂ h.fields g hg
  refine ⟨sp.type f.type, hspelled f hf g.shape hshape, ?_⟩
  rw [hname, declared_field (h.differ ht) hf]
  rfl

end StructDef

/-! ## Spellings by descriptors -/

/-- A spelling goes by kinds on the descriptors that are in order, and what is inside of those is in
order too: a container is spelled from the spellings of its parts, a pointer to a scalar as the
scalar that may be absent, and any other pointer as what it points to. -/
structure Spelling.Lawful (sp : Spelling) (InOrder : Descriptor → Prop) : Prop where
  key : ∀ {ty k}, InOrder ty → ty.key = some k → InOrder k
  elem : ∀ {ty e}, InOrder ty → ty.elem = some e → InOrder e
  scalar : ∀ {ty scalar}, InOrder ty → Scalar.ofKind? ty.kind = some scalar →
    sp.type ty = sp.scalar scalar
  string : ∀ {ty}, InOrder ty → ty.kind = .string → sp.type ty = sp.text
  bytes : ∀ {ty}, InOrder ty → ty.kind = .bytes → sp.type ty = sp.bytes
  array : ∀ {ty e}, InOrder ty → ty.kind = .array → ty.elem = some e →
    sp.type ty = sp.list ty.isFixed (sp.type e)
  map : ∀ {ty k e}, InOrder ty → ty.kind = .map → ty.key = some k → ty.elem = some e →
    sp.type ty = sp.map (sp.type k) (sp.type e)
  nullable : ∀ {ty e scalar}, InOrder ty → ty.kind = .pointer → ty.elem = some e →
    Scalar.ofKind? e.kind = some scalar → sp.type ty = sp.nullable scalar
  pointer : ∀ {ty e}, InOrder ty → ty.kind = .pointer → ty.elem = some e →
    e.kind.isScalar = false → sp.type ty = sp.type e

namespace Spelling.Lawful

variable {sp : Spelling} {InOrder : Descriptor → Prop} {ty : Descriptor}

/-- Pointers that are taken away leave the spelling as it is. -/
theorem type_unwrapped (h : sp.Lawful InOrder) (hty : InOrder ty) :
    sp.type ty.unwrapped = sp.type ty := by
  fun_induction Descriptor.unwrapped ty with
  | case1 => rfl
  | case2 pointee key len name hkind ih =>
    rw [ih (h.elem hty rfl), h.pointer hty rfl rfl (eq_false_of_ne_true hkind)]
  | case3 => rfl

theorem inOrder_unwrapped (h : sp.Lawful InOrder) (hty : InOrder ty) : InOrder ty.unwrapped := by
  fun_induction Descriptor.unwrapped ty with
  | case1 => exact hty
  | case2 pointee key len name hkind ih => exact ih (h.elem hty rfl)
  | case3 => exact hty

theorem spelled_of_shape (h : sp.Lawful InOrder) (hty : InOrder ty) {s : Shape}
    (hs : ty.shape = .ok s) : s.Spelled sp (sp.type ty) := by
  fun_induction Descriptor.shape ty generalizing s with
  | case1 =>
    cases hs
    exact h.string hty rfl
  | case2 _ _ len _ =>
    cases hs
    split <;> exact h.bytes hty rfl
  | case3 | case5 | case6 | case8 | case12 => cases hs
  | case4 elem _ len _ ih =>
    obtain ⟨e, he, hs⟩ := bind_eq_ok.1 hs
    cases hs
    have helem := h.elem hty rfl
    have hspelled := ih helem he
    -- The field spells its element with the pointers around it, the program without them.
    rw [← h.type_unwrapped helem] at hspelled
    rw [h.array hty rfl rfl, Descriptor.isFixed, ← h.type_unwrapped helem]
    split
    · rename_i hlen
      rw [hlen]
      exact ⟨rfl, hspelled⟩
    · rename_i hlen
      rw [eq_false_of_ne_true hlen]
      exact ⟨rfl, hspelled⟩
  | case7 value key _ _ ihk ihv =>
    obtain ⟨k, hk, hs⟩ := bind_eq_ok.1 hs
    obtain ⟨v, hv, hs⟩ := bind_eq_ok.1 hs
    cases hs
    have hkey := h.key hty rfl
    have hvalue := h.elem hty rfl
    rw [h.map hty rfl rfl rfl, ← h.type_unwrapped hkey, ← h.type_unwrapped hvalue]
    refine ⟨rfl, ?_, ?_⟩
    · rw [h.type_unwrapped hkey]
      exact ihk hkey hk
    · rw [h.type_unwrapped hvalue]
      exact ihv hvalue hv
  | case9 pointee _ _ _ scalar hkind =>
    cases hs
    exact h.nullable hty rfl rfl hkind
  | case10 pointee _ _ _ hkind ih =>
    have hpointee := h.elem hty rfl
    rw [h.pointer hty rfl rfl (Descriptor.isScalar_of_ofKind?_eq_none hkind)]
    exact ih hpointee hs
  | case11 =>
    cases hs
    rfl
  | case13 kind elem key len name _ _ _ _ _ _ _ _ _ _ scalar hkind =>
    cases hs
    exact h.scalar hty hkind
  | case14 => cases hs

end Spelling.Lawful

theorem Kind.isScalar_of_ofKind? {kind : Kind} {scalar : Scalar}
    (h : Scalar.ofKind? kind = some scalar) : kind.isScalar = true := by
  cases kind <;> first | rfl | cases h

namespace Native

/-- The types of Rust code. -/
def spelling : Spelling where
  type := typeName
  list _ := listType
  map := mapType
  scalar := Scalar.name
  nullable scalar := "Option<" ++ scalar.name ++ ">"
  text := "String"
  bytes := "Vec<u8>"

theorem typeName_of_ofKind? {ty : Descriptor} {scalar : Scalar}
    (h : Scalar.ofKind? ty.kind = some scalar) : typeName ty = scalar.name := by
  obtain ⟨kind, elem, key, len, name⟩ := ty
  cases kind <;> cases h <;> simp [typeName, Scalar.ofKind?]

/-- Names do not matter, so every descriptor is in order. -/
theorem lawful_spelling : spelling.Lawful fun _ => True where
  key _ _ := trivial
  elem _ _ := trivial
  scalar _ h := typeName_of_ofKind? h
  string := by
    rintro ⟨_, elem, key, len, name⟩ - rfl
    simp [spelling, typeName]
  bytes := by
    rintro ⟨_, elem, key, len, name⟩ - rfl
    simp [spelling, typeName]
  array := by
    rintro ⟨_, _, key, len, name⟩ e - rfl rfl
    simp [spelling, typeName]
  map := by
    rintro ⟨_, _, _, len, name⟩ k e - rfl rfl rfl
    simp [spelling, typeName]
  nullable := by
    rintro ⟨_, _, key, len, name⟩ e scalar - rfl rfl h
    simp [spelling, typeName, Kind.isScalar_of_ofKind? h, typeName_of_ofKind? h]
  pointer := by
    rintro ⟨_, _, key, len, name⟩ e - rfl rfl h
    simp [spelling, typeName, h]

end Native

namespace Descriptor

/-- Of all the descriptors in a type, only those of structs carry a name. -/
def onlyStructsNamed : Descriptor → Bool
  | ⟨kind, elem, key, len, name⟩ =>
    (kind == .struct || (name? ⟨kind, elem, key, len, name⟩).isNone) &&
    (match key with
      | some k => k.onlyStructsNamed
      | none => true) &&
    (match elem with
      | some e => e.onlyStructsNamed
      | none => true)

theorem onlyStructsNamed_iff {ty : Descriptor} :
    ty.onlyStructsNamed = true ↔ (ty.kind ≠ .struct → ty.name? = none) ∧
      (∀ k, ty.key = some k → k.onlyStructsNamed = true) ∧
      ∀ e, ty.elem = some e → e.onlyStructsNamed = true := by
  obtain ⟨kind, elem, key, len, name⟩ := ty
  rw [onlyStructsNamed.eq_def, Bool.and_eq_true, Bool.and_eq_true, Bool.or_eq_true, beq_iff_eq,
    Option.isNone_iff_eq_none, or_iff_not_imp_left, and_assoc]
  cases key <;> cases elem <;> simp

end Descriptor

namespace Managed

/-- The types of C# code. -/
def spelling : Spelling where
  type := typeName
  list sized elem := if sized then arrayType elem else listType elem
  map := mapType
  scalar := scalarType
  nullable scalar := "Nullable<" ++ scalarType scalar ++ ">"
  text := "string"
  bytes := "byte[]"

/-- Where only structs have names, the name of any other type does not matter. -/
theorem typeName_unnamed {kind : Kind} {elem key : Option Descriptor} {len : UInt32}
    {name : Option String} (h : Descriptor.onlyStructsNamed ⟨kind, elem, key, len, name⟩ = true)
    (hkind : kind ≠ .struct) :
    typeName ⟨kind, elem, key, len, name⟩ = typeName ⟨kind, elem, key, len, none⟩ := by
  have hname : name.filter (! ·.isEmpty) = none := (Descriptor.onlyStructsNamed_iff.1 h).1 hkind
  rw [typeName.eq_def, typeName.eq_def]
  dsimp only
  rw [hname]
  rfl

theorem typeName_of_ofKind? {ty : Descriptor} (hty : ty.onlyStructsNamed = true) {scalar : Scalar}
    (h : Scalar.ofKind? ty.kind = some scalar) : typeName ty = scalarType scalar := by
  obtain ⟨kind, elem, key, len, name⟩ := ty
  rw [typeName_unnamed hty (by rintro rfl; cases h), typeName.eq_def]
  cases kind <;> cases h <;> rfl

/-- A name takes the place of a type, so a descriptor is in order when only structs have names. -/
theorem lawful_spelling : spelling.Lawful (·.onlyStructsNamed = true) where
  key h := (Descriptor.onlyStructsNamed_iff.1 h).2.1 _
  elem h := (Descriptor.onlyStructsNamed_iff.1 h).2.2 _
  scalar hty h := typeName_of_ofKind? hty h
  string := by
    rintro ⟨_, elem, key, len, name⟩ hty rfl
    simp only [spelling]
    rw [typeName_unnamed hty nofun, typeName.eq_def]
    rfl
  bytes := by
    rintro ⟨_, elem, key, len, name⟩ hty rfl
    simp only [spelling]
    rw [typeName_unnamed hty nofun, typeName.eq_def]
    rfl
  array := by
    rintro ⟨_, _, key, len, name⟩ e hty rfl rfl
    simp only [spelling]
    rw [typeName_unnamed hty nofun, typeName.eq_def]
    rfl
  map := by
    rintro ⟨_, _, _, len, name⟩ k e hty rfl rfl rfl
    simp only [spelling]
    rw [typeName_unnamed hty nofun, typeName.eq_def]
    rfl
  nullable := by
    rintro ⟨_, _, key, len, name⟩ e scalar hty rfl rfl h
    have he := (Descriptor.onlyStructsNamed_iff.1 hty).2.2 e rfl
    simp only [spelling]
    rw [typeName_unnamed hty nofun, typeName.eq_def]
    simp [Kind.isScalar_of_ofKind? h, typeName_of_ofKind? he h]
  pointer := by
    rintro ⟨_, _, key, len, name⟩ e hty rfl rfl h
    simp only [spelling]
    rw [typeName_unnamed hty nofun, typeName.eq_def]
    simp [h]

end Managed

end WireSchema
