-- The types of places as the generated code declares them, and the code that makes values of
-- those types.
import WireSchema.Proofs.Program.Typing

namespace WireSchema

open Outcome

/-! ## Rust code -/

namespace Native

/-- The line that declares a temporary. -/
def declaration (var type value : String) : Code :=
  .line ("let mut " ++ var ++ ": " ++ type ++ " = " ++ value ++ ";")

/-- The code of a program that reads a struct is consistent in its types: it declares each place
with a type, makes nested values by that type, and each step fits the types of its places. -/
structure TypedReader (s : StructDef) (ops : List Op) : Prop where
  field : ∀ f ∈ s.fields, ∃ d remark, s.declared spelling ops (.field f.name) = some d ∧
    fieldDecl f = .line ("pub " ++ fieldName f.name ++ ": " ++ d.type ++ "," ++ remark)
  temp : ∀ op ∈ Op.allSteps ops, ∀ var d, op.declares spelling = some (var, d) →
    s.declared spelling ops (.temp var) = some d ∧
      ∃ value, unmarshalOp op = [declaration var d.type value]
  nested : ∀ target type, .unmarshalNested target type ∈ Op.allSteps ops →
    ∃ d, s.declared spelling ops target = some d ∧
      (unmarshalOp (.unmarshalNested target type)).head? =
        some (.line (place target ++ " = " ++ d.type ++ "::default();"))
  steps : ∀ op ∈ Op.allSteps ops, op.Typed spelling (s.declared spelling ops)

theorem unmarshalOp_of_declares {op : Op} {var : String} {d : Declared}
    (h : op.declares spelling = some (var, d)) :
    ∃ value, unmarshalOp op = [declaration var d.type value] := by
  cases op with
  | declareLocal _ type =>
    cases h
    refine ⟨"Default::default()", ?_⟩
    simp [← String.toList_inj, toString, unmarshalOp, declaration, spelling, Spelling.placeOf]
  | newList _ elem len =>
    cases h
    cases len with
    | fixed len =>
      refine ⟨s!"Vec::with_capacity({len})", ?_⟩
      simp [← String.toList_inj, toString, unmarshalOp, declaration, spelling, Spelling.listOf]
    | var count =>
      refine ⟨"Vec::new()", ?_⟩
      simp [← String.toList_inj, toString, unmarshalOp, declaration, spelling, Spelling.listOf]
  | newMap _ key value =>
    cases h
    refine ⟨"indexmap::IndexMap::new()", ?_⟩
    simp [← String.toList_inj, toString, unmarshalOp, declaration, spelling, Spelling.mapOf]
  | _ => cases h

end Native

namespace Managed

/-- So many empty brackets. -/
def brackets (ranks : Nat) : String := String.join (List.replicate ranks "[]")

/-- The expression makes an array of the type. The length stands in the first brackets, behind a
type that is no array itself. -/
def MakesArray (type value : String) : Prop :=
  ∃ base len ranks, (stripRanks base.toList.reverse).2 = 0 ∧
    type = base ++ "[]" ++ brackets ranks ∧
    value = "new " ++ base ++ "[" ++ toString (len : UInt32).toNat ++ "]" ++ brackets ranks

/-- The expression makes a value of the type. -/
inductive Makes (type : String) : String → Prop where
  | new : Makes type ("new " ++ type ++ "()")
  | default : Makes type ("default(" ++ type ++ ")")
  | array {value : String} (h : MakesArray type value) : Makes type value

/-- The line that declares a temporary. -/
def declaration (var type value : String) : Code :=
  .line (type ++ " " ++ var ++ " = " ++ value ++ ";")

/-- The code of a program that reads a struct is consistent in its types: it declares each place
with a type and makes a value of that type for it, and each step fits the types of its places. -/
structure TypedReader (s : StructDef) (ops : List Op) : Prop where
  field : ∀ f ∈ s.fields, ∃ d, s.declared spelling ops (.field f.name) = some d ∧
    (fieldDecl f = .line ("public " ++ d.type ++ " " ++ f.name ++ ";") ∨
      ∃ value, Makes d.type value ∧
        fieldDecl f = .line ("public " ++ d.type ++ " " ++ f.name ++ " = " ++ value ++ ";"))
  temp : ∀ o ∈ Op.allSteps ops, ∀ var d, o.declares spelling = some (var, d) →
    s.declared spelling ops (.temp var) = some d ∧
      ∃ value, Makes d.type value ∧ op o = [declaration var d.type value]
  nested : ∀ target type, .unmarshalNested target type ∈ Op.allSteps ops →
    ∃ d, s.declared spelling ops target = some d ∧
      (op (.unmarshalNested target type)).head? =
        some (.line (place target ++ " = new " ++ d.type ++ "();"))
  steps : ∀ o ∈ Op.allSteps ops, o.Typed spelling (s.declared spelling ops)

/-! ### Arrays in arrays -/

theorem brackets_succ (ranks : Nat) : brackets (ranks + 1) = brackets ranks ++ "[]" := by
  simp [brackets, List.replicate_succ', String.join_append]

/-- Taking away the empty brackets leaves a type that is no array, and the type is that one with
the brackets. -/
theorem stripRanks_spec (text : List Char) :
    (stripRanks (stripRanks text).1).2 = 0 ∧
      String.ofList text.reverse =
        String.ofList (stripRanks text).1.reverse ++ brackets (stripRanks text).2 := by
  fun_induction stripRanks text with
  | case1 rest base ranks h ih =>
    rw [h] at ih
    refine ⟨ih.1, ?_⟩
    rw [brackets_succ, ← String.append_assoc, ← ih.2]
    simp
  | case2 base h =>
    refine ⟨?_, ?_⟩
    · rw [stripRanks.eq_def]
      split
      · rename_i hbase
        exact (h _ hbase).elim
      · rfl
    · simp [brackets]

/-- The brackets of a type can stand before those of its elements or behind them. -/
theorem brackets_comm (ranks : Nat) : brackets ranks ++ "[]" = "[]" ++ brackets ranks := by
  rw [← brackets_succ, brackets, List.replicate_succ, String.join_cons]
  rfl

/-- A new array has the type of arrays of its elements, also when those are arrays. -/
theorem makesArray_newArray (elem : String) (len : UInt32) :
    MakesArray (arrayType elem) (newArray elem len) := by
  obtain ⟨hbase, helem⟩ := stripRanks_spec elem.toList.reverse
  refine ⟨_, len, (stripRanks elem.toList.reverse).2, ?_, ?_, rfl⟩
  · simpa using hbase
  · rw [String.append_assoc, ← brackets_comm, ← String.append_assoc, ← helem]
    simp [arrayType]

example : newArray "List<byte[]>[][]" 2 = "new List<byte[]>[2][][]" := by decide

theorem op_of_declares {o : Op} {var : String} {d : Declared}
    (h : o.declares spelling = some (var, d)) :
    ∃ value, Makes d.type value ∧ op o = [declaration var d.type value] := by
  cases o with
  | declareLocal _ type =>
    cases h
    refine ⟨_, .default, ?_⟩
    simp [← String.toList_inj, toString, op, declaration, spelling, Spelling.placeOf]
  | newList _ elem len =>
    cases h
    cases len with
    | fixed len =>
      refine ⟨_, .array (makesArray_newArray (typeName elem) len), ?_⟩
      simp [← String.toList_inj, toString, op, declaration, spelling, Spelling.listOf,
        Count.isFixed]
    | var count =>
      refine ⟨_, .new, ?_⟩
      simp [← String.toList_inj, toString, op, declaration, spelling, Spelling.listOf,
        Count.isFixed]
  | newMap _ key value =>
    cases h
    refine ⟨_, .new, ?_⟩
    simp [← String.toList_inj, toString, op, declaration, spelling, Spelling.mapOf]
  | _ => cases h

/-- The type of an array with a length, whether or not the descriptor says what is in it. -/
theorem typeName_array {elem key : Option Descriptor} {len : UInt32} {name : Option String}
    (h : Descriptor.onlyStructsNamed ⟨.array, elem, key, len, name⟩ = true) (hlen : len ≠ 0) :
    typeName ⟨.array, elem, key, len, name⟩ = arrayType ((elem.map typeName).getD anyType) := by
  rw [typeName_unnamed h nofun, typeName.eq_def]
  cases elem <;> simp [hlen]

/-- What a field starts with has the type of the field. -/
theorem makes_of_initializer? {ty : Descriptor} (hty : ty.onlyStructsNamed = true) {value : String}
    (h : initializer? ty = some value) : Makes (typeName ty) value := by
  have hunwrapped : typeName ty.unwrapped = typeName ty := lawful_spelling.type_unwrapped hty
  have hu := lawful_spelling.inOrder_unwrapped hty
  rw [← hunwrapped]
  simp only [initializer?] at h
  -- From here on only the type without its pointers counts.
  generalize ty.unwrapped = u at h hu ⊢
  obtain ⟨kind, elem, key, len, name⟩ := u
  split at h
  case h_1 hkind =>
    cases hkind
    split at h
    · rename_i hfixed
      cases h
      rw [typeName_array hu (by simpa [Descriptor.isFixed] using hfixed)]
      exact .array (makesArray_newArray _ len)
    · cases h
      exact .new
  case h_2 | h_3 =>
    cases h
    exact .new
  case h_4 hkind =>
    split at h
    · cases h
      refine .array ⟨"byte", len, 0, rfl, ?_, ?_⟩
      · exact lawful_spelling.bytes hu hkind
      · simp [brackets]
    · cases h
  case h_5 => cases h

theorem fieldDecl_spec {f : Field} (h : f.type.onlyStructsNamed = true) :
    fieldDecl f = .line ("public " ++ typeName f.type ++ " " ++ f.name ++ ";") ∨
      ∃ value, Makes (typeName f.type) value ∧ fieldDecl f =
        .line ("public " ++ typeName f.type ++ " " ++ f.name ++ " = " ++ value ++ ";") := by
  cases hvalue : initializer? f.type with
  | none =>
    refine .inl ?_
    simp [fieldDecl, hvalue, toString]
  | some value =>
    refine .inr ⟨value, makes_of_initializer? h hvalue, ?_⟩
    simp [fieldDecl, hvalue, toString]

end Managed

/-! ## Documents -/

namespace StructDef.Shaped

variable {s : StructDef} {t : StructShape}

theorem nativeReader (h : s.Shaped t) (ht : t.Sound) (widths : MinWidths) :
    Native.TypedReader s (t.program widths).unmarshal := by
  have hsteps := h.typed ht widths fun _ _ _ hshape =>
    Native.lawful_spelling.spelled_of_shape trivial hshape
  refine ⟨fun f hf => ?_, fun op hop var d hd => ?_, fun target type hop => ?_, hsteps⟩
  · exact ⟨_, _, declared_field (h.differ ht) hf _, rfl⟩
  · exact ⟨known_program s t widths op hop _ hd, Native.unmarshalOp_of_declares hd⟩
  · obtain ⟨d, hd, htype⟩ := Option.map_eq_some_iff.1 (hsteps _ hop)
    refine ⟨d, hd, ?_⟩
    rw [htype]
    rfl

theorem managedReader (h : s.Shaped t) (ht : t.Sound) (widths : MinWidths)
    (hnames : ∀ f ∈ s.fields, f.type.onlyStructsNamed = true) :
    Managed.TypedReader s (t.program widths).unmarshal := by
  have hsteps := h.typed ht widths fun f hf _ hshape =>
    Managed.lawful_spelling.spelled_of_shape (hnames f hf) hshape
  refine ⟨fun f hf => ?_, fun op hop var d hd => ?_, fun target type hop => ?_, hsteps⟩
  · exact ⟨_, declared_field (h.differ ht) hf _, Managed.fieldDecl_spec (hnames f hf)⟩
  · exact ⟨known_program s t widths op hop _ hd, Managed.op_of_declares hd⟩
  · obtain ⟨d, hd, htype⟩ := Option.map_eq_some_iff.1 (hsteps _ hop)
    refine ⟨d, hd, ?_⟩
    rw [htype]
    rfl

end StructDef.Shaped

/-- The code that reads the structs of a document that passes and is lowered is consistent in its
types: Rust code always, and C# code of a struct in whose fields only structs carry names. -/
theorem Document.readers_are_typed {doc : Document} (h : doc.check = .ok ()) {p : DocumentProgram}
    (hp : doc.program = .ok p) :
    List.Forall₂ (fun s t => t.typeName = s.name ∧ Native.TypedReader s t.unmarshal ∧
      ((∀ f ∈ s.fields, f.type.onlyStructsNamed = true) → Managed.TypedReader s t.unmarshal))
      doc.messageStructs p.types := by
  obtain ⟨shapes, hshapes, hsound⟩ := shapes_of_check h
  obtain ⟨-, rfl⟩ := (program_eq_ok_iff hshapes).1 hp
  rw [programsOf, List.forall₂_map_right_iff]
  refine ((List.forall₂_and_left _ _).2 ⟨hsound, hshapes.flip⟩).flip.imp ?_
  rintro s t ⟨ht, hst⟩
  exact ⟨hst.name_eq, hst.nativeReader ht _, hst.managedReader ht _⟩

/-- A document of one struct, with a grid of byte strings and a map to structs. -/
def gridDocument : Document :=
  let row : Descriptor := ⟨.array, some (.ofKind .bytes), none, 3, none⟩
  let self : Descriptor := ⟨.struct, none, none, 0, some "S"⟩
  ⟨"p", [⟨"S", none,
    [⟨"Grid", ⟨.array, some ⟨.pointer, some row, none, 0, none⟩, none, 2, none⟩⟩,
      ⟨"Parts", ⟨.map, some ⟨.array, some self, none, 0, none⟩, some (.ofKind .string), 0,
        none⟩⟩]⟩]⟩

theorem Document.grid_readers_are_typed : gridDocument.check = .ok () ∧
    ∃ p, gridDocument.program = .ok p ∧ List.Forall₂ (fun s t =>
      Native.TypedReader s t.unmarshal ∧ Managed.TypedReader s t.unmarshal)
      gridDocument.messageStructs p.types := by
  have hcheck : gridDocument.check = .ok () := rfl
  have hnames : ∀ s ∈ gridDocument.messageStructs, ∀ f ∈ s.fields,
      f.type.onlyStructsNamed = true := by decide
  obtain ⟨p, hp⟩ : ∃ p, gridDocument.program = .ok p := ⟨_, rfl⟩
  have htyped := readers_are_typed hcheck hp
  refine ⟨hcheck, p, hp, ((List.forall₂_and_left _ _).2 ⟨hnames, htyped⟩).imp ?_⟩
  rintro s t ⟨hs, -, hnative, hmanaged⟩
  exact ⟨hnative, hmanaged hs⟩

end WireSchema
