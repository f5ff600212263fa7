-- Programs as JSON trees and back. The parts of a step stand under names of their own beside the
-- tag, and the steps of a body in a list inside of it.
import WireSchema.Program.Codec
import WireSchema.Proofs.Layout.Trees
import WireSchema.Proofs.Schema.Trees

namespace WireSchema

open Json Record

/-! ## Parts of steps -/

@[simp]
theorem Place.decode?_toJson (place : Place) : decode? place.toJson = some place := by
  cases place <;> rfl

@[simp]
theorem Count.decode?_toJson (count : Count) : decode? count.toJson = some count := by
  cases count with
  | fixed | var =>
    rw [toJson, decode?, tagged?_bind true rfl rfl]
    simp [Body.entries?, text?]

@[simp]
theorem SizeTerm.decode?_toJson (term : SizeTerm) : decode? term.toJson = some term := by
  cases term with
  | const | utf8Len | byteLen | countTimes | optional | nested =>
    rw [toJson, decode?, tagged?_bind true rfl rfl]
    simp [Body.entries?]

@[simp]
theorem Place.isSound_toJson (place : Place) : place.toJson.isSound = true := by
  cases place <;> rfl

@[simp]
theorem Count.isSound_toJson (count : Count) : count.toJson.isSound = true := by
  cases count <;> rfl

@[simp]
theorem SizeTerm.isSound_toJson (term : SizeTerm) : term.toJson.isSound = true := by
  cases term <;> simp [toJson, isSound, soundEntries]

namespace Op

@[simp]
theorem type?_toJson (type : Descriptor) : type? type.toJson = some type :=
  Descriptor.reads_toJson faithful_heldFormat (Nat.le_refl _) _ (Nat.le_refl _)

theorem listToJson_eq_map (ops : List Op) : listToJson ops = ops.map toJson := by
  induction ops with
  | nil => rfl
  | cons op ops ih => rw [listToJson, ih, List.map_cons]

/-! ## Steps -/

mutual

/-- Every literal in the tree of a step stands for a value. -/
theorem isSound_toJson : ∀ op : Op, op.toJson.isSound = true
  | forEach _ _ body | forEachEntry _ _ _ body | loop _ _ body => by
    simp [toJson, tagged, isSound, soundEntries, soundItems_listToJson body]
  | writeBytes _ len | readBytes _ len => by
    cases len <;> simp [toJson, tagged, isSound, soundEntries, lenEntry, optionalEntry]
  | append _ _ index => by
    cases index <;> simp [toJson, tagged, isSound, soundEntries, optionalEntry]
  | addSize .. | writeScalar .. | writeNullable .. | writeString .. | writeCount .. | checkLen ..
  | marshalNested .. | readScalar .. | readNullable .. | readString .. | readCount ..
  | unmarshalNested .. | declareLocal .. | newList .. | newMap .. | insert .. | assign .. => by
    simp [toJson, tagged, isSound, soundEntries]

theorem soundItems_listToJson : ∀ ops : List Op, soundItems (listToJson ops) = true
  | [] => rfl
  | op :: ops => by
    rw [listToJson, soundItems, isSound_toJson op, soundItems_listToJson ops]
    rfl

end

/-- The induction is on the fuel: the steps of a body are less deep, and take one less. -/
theorem decode?_toJson (held : Bool) {fuel : Nat} {op : Op} (h : op.toJson.depth ≤ fuel) :
    decode? fuel held op.toJson = some op := by
  induction fuel generalizing held op with
  | zero => cases op <;> cases h
  | succ fuel ih =>
    have hbody {body : List Op} (hdepth : depthItems (listToJson body) ≤ fuel) :
        (listToJson body).mapM (decode? fuel true) = some body := by
      rw [listToJson_eq_map] at hdepth ⊢
      refine mapM_map_eq_some fun op hop => ih true ?_
      exact Nat.le_trans (depth_le_of_mem_items (List.mem_map_of_mem hop)) hdepth
    cases op with
    | forEach source item body | forEachEntry source key value body | loop count index body =>
      have hdepth : depthItems (listToJson body) ≤ fuel := by
        simp only [toJson, tagged, depth, depthEntries] at h
        omega
      rw [toJson, decode?, tagged, tagged?_bind held rfl rfl]
      simp [Body.entries?, text?, elements?, hbody hdepth]
    | writeBytes value len | readBytes target len =>
      rw [toJson, decode?, tagged, tagged?_bind held rfl (by cases len <;> rfl)]
      cases len <;> simp [Body.entries?, fieldD?, given?, Record.optional?, lenEntry,
        optionalEntry, Json.optional?, isNull]
    | append list item index =>
      rw [toJson, decode?, tagged, tagged?_bind held rfl (by cases index <;> rfl)]
      cases index <;> simp [Body.entries?, fieldD?, given?, Record.optional?, optionalEntry,
        Json.optional?, isNull, text?]
    | _ =>
      rw [toJson, decode?, tagged, tagged?_bind held rfl rfl]
      simp [Body.entries?, fieldD?, given?, Record.optional?, scalar?, text?]

theorem reads_toJson (op : Op) : Reads ofNode? op.toJson op := by
  intro room hroom
  have hwhole : Node.whole? ⟨op.toJson, room⟩ = some op.toJson := by
    simp [Node.whole?, op.isSound_toJson, hroom]
  rw [ofNode?, hwhole]
  exact decode?_toJson false (Nat.le_succ _)

end Op

/-! ## Programs -/

theorem StructProgram.reads_toJson (p : StructProgram) : Reads ofNode? p.toJson p := by
  have hops (ops : List Op) : Reads (format.list? Op.ofNode?) (.arr (Op.listToJson ops)) ops := by
    rw [Op.listToJson_eq_map]
    exact faithful_format.reads_list fun op _ => op.reads_toJson
  refine reads_obj fun room hroom => ?_
  simp only [ofNode?, Node.entries?_obj, Option.bind_eq_bind, Option.bind_some]
  rw [(faithful_format.reads_text p.typeName).field? hroom rfl,
    (faithful_format.reads_list fun f _ => FieldLayout.reads_toJson f).field? hroom rfl,
    (hops p.size).field? hroom rfl, (hops p.marshal).field? hroom rfl,
    (hops p.unmarshal).field? hroom rfl]
  rfl

theorem DocumentProgram.reads_toJson (p : DocumentProgram) : Reads ofNode? p.toJson p := by
  refine reads_obj fun room hroom => ?_
  simp only [ofNode?, Node.entries?_obj, Option.bind_eq_bind, Option.bind_some]
  rw [(faithful_format.reads_word32 p.version).field? hroom rfl,
    (faithful_format.reads_text p.package).field? hroom rfl,
    (faithful_format.reads_list fun t _ => StructProgram.reads_toJson t).field? hroom rfl]
  rfl

/-- Trees keep all of a document, a descriptor, layouts and programs: the tree that a value is
written as is read as that value. -/
theorem Json.trees_are_lossless :
    (∀ doc : Document, decodeTree? Document.ofNode? doc.toJson = some doc) ∧
      (∀ type : Descriptor, decodeTree? Descriptor.ofNode? type.toJson = some type) ∧
      (∀ d : DocumentLayout, decodeTree? DocumentLayout.ofNode? d.toJson = some d) ∧
      (∀ p : StructProgram, decodeTree? StructProgram.ofNode? p.toJson = some p) ∧
      ∀ p : DocumentProgram, decodeTree? DocumentProgram.ofNode? p.toJson = some p :=
  ⟨fun _ => Document.reads_toJson faithful_format (Nat.le_refl _) _ (Nat.le_refl _),
    fun _ => Descriptor.reads_toJson faithful_format (Nat.le_refl _) _ (Nat.le_refl _),
    fun d => d.reads_toJson.decodeTree?, fun p => p.reads_toJson.decodeTree?,
    fun p => p.reads_toJson.decodeTree?⟩

end WireSchema
