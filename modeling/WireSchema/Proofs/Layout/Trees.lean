-- Layouts as JSON trees and back. A layout is told by its tag, whose name no field bears.
import WireSchema.Proofs.Json.Records

namespace WireSchema

open Json Record

/-! ## Scalars and numbers -/

@[simp]
theorem Scalar.ofName?_name (scalar : Scalar) : ofName? scalar.name = some scalar := by
  cases scalar <;> rfl

theorem ByteOrder.ofName?_name (order : ByteOrder) : ofName? order.name = some order := by
  cases order <;> rfl

@[simp]
theorem Json.heldChoice?_str {α : Type} (ofName? : String → Option α) (name : String) :
    heldChoice? ofName? (.str name) = ofName? name :=
  rfl

@[simp]
theorem Json.word32?_toNat (n : UInt32) : word32? (.int n.toNat) = some n :=
  (faithful_format.reads_word32 n).decodeTree?

@[simp]
theorem Json.word64?_toNat (n : UInt64) : word64? (.int n.toNat) = some n :=
  (faithful_format.reads_word64 n).decodeTree?

/-! ## Layouts -/

namespace Layout

/-- Every literal in the tree of a layout stands for a value. -/
theorem isSound_toJson (l : Layout) : l.toJson.isSound = true := by
  induction l <;> simp_all [toJson, isSound, soundEntries]

/-- The induction is on the fuel: the layouts inside are less deep, and take one less. -/
theorem decode?_toJson (held : Bool) {fuel : Nat} {l : Layout} (h : l.toJson.depth ≤ fuel) :
    decode? fuel held l.toJson = some l := by
  induction fuel generalizing held l with
  | zero => cases l <;> cases h
  | succ fuel ih =>
    cases l with
    | fixed scalar | nullable scalar | string | fixedBytes len | dynamicBytes | embedded type =>
      rw [toJson, decode?, tagged?_bind held rfl rfl]
      simp [Body.entries?, Body.isBare, text?]
    | fixedArray len elem | dynamicArray elem =>
      have helem : elem.toJson.depth ≤ fuel := by
        simp only [toJson, depth, depthEntries] at h
        omega
      rw [toJson, decode?, tagged?_bind held rfl rfl]
      simp [Body.entries?, ih true helem]
    | map key value =>
      simp only [toJson, depth, depthEntries] at h
      have hkey : key.toJson.depth ≤ fuel := by omega
      have hvalue : value.toJson.depth ≤ fuel := by omega
      rw [toJson, decode?, tagged?_bind held rfl rfl]
      simp [Body.entries?, ih true hkey, ih true hvalue]

theorem reads_toJson (l : Layout) : Reads ofNode? l.toJson l := by
  intro room hroom
  have hwhole : Node.whole? ⟨l.toJson, room⟩ = some l.toJson := by
    simp [Node.whole?, l.isSound_toJson, hroom]
  rw [ofNode?, hwhole]
  exact decode?_toJson false (Nat.le_succ _)

end Layout

theorem FieldLayout.reads_toJson (f : FieldLayout) : Reads ofNode? f.toJson f := by
  refine reads_obj fun room hroom => ?_
  simp only [ofNode?, Node.entries?_obj, Option.bind_eq_bind, Option.bind_some]
  rw [(faithful_format.reads_text f.name).field? hroom rfl, f.layout.reads_toJson.field? hroom rfl]
  rfl

theorem StructLayout.reads_toJson (s : StructLayout) : Reads ofNode? s.toJson s := by
  refine reads_obj fun room hroom => ?_
  simp only [ofNode?, Node.entries?_obj, Option.bind_eq_bind, Option.bind_some]
  rw [(faithful_format.reads_text s.name).field? hroom rfl,
    (faithful_format.reads_list fun f _ => FieldLayout.reads_toJson f).field? hroom rfl]
  rfl

theorem DocumentLayout.reads_toJson (d : DocumentLayout) : Reads ofNode? d.toJson d := by
  have horder : Reads (fun n => n.choice?.bind ByteOrder.ofName?) (.str d.byteOrder.name)
      d.byteOrder := faithful_format.reads_choose (ByteOrder.ofName?_name d.byteOrder)
  refine reads_obj fun room hroom => ?_
  simp only [ofNode?, Node.entries?_obj, Option.bind_eq_bind, Option.bind_some]
  rw [(faithful_format.reads_word32 d.version).field? hroom rfl,
    (faithful_format.reads_text d.package).field? hroom rfl, horder.field? hroom rfl,
    (faithful_format.reads_list fun s _ => StructLayout.reads_toJson s).field? hroom rfl]
  rfl

end WireSchema
