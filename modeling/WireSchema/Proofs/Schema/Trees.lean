-- Documents as JSON trees and back. A part that is left out of the tree comes back as what stands
-- for it: nothing, or a length of zero.
import WireSchema.Proofs.Json.Records

namespace WireSchema

open Json Record

variable {f : Format Option Node}

theorem Kind.ofName?_name (kind : Kind) : ofName? kind.name = some kind := by
  cases kind <;> rfl

theorem Role.ofName?_name (role : Role) : ofName? role.name = some role := by
  cases role <;> rfl

/-! ## Descriptors -/

namespace Descriptor

/-- The entries of a descriptor: its kind, and each other part that it has. -/
def entries (type : Descriptor) : List (String × Json) :=
  [("kind", .str type.kind.name)] ++ optionalEntry "elem" (type.elem.map toJson) ++
    optionalEntry "key" (type.key.map toJson) ++
    optionalEntry "len" (if type.len == 0 then none else some (.int type.len.toNat)) ++
    optionalEntry "name" (type.name.map .str)

theorem toJson_eq (type : Descriptor) : type.toJson = .obj type.entries := by
  obtain ⟨kind, elem, key, len, name⟩ := type
  rw [toJson.eq_def]
  cases elem <;> cases key <;> rfl

theorem isNull_toJson (type : Descriptor) : type.toJson.isNull = false := by
  rw [toJson_eq]
  rfl

/-- Every literal in the tree of a descriptor stands for a value. -/
@[simp]
theorem isSound_toJson : ∀ type : Descriptor, type.toJson.isSound = true
  | ⟨kind, elem, key, len, name⟩ => by
    have helem : (elem.map toJson).all isSound = true := by
      cases elem with
      | none => rfl
      | some e => exact isSound_toJson e
    have hkey : (key.map toJson).all isSound = true := by
      cases key with
      | none => rfl
      | some k => exact isSound_toJson k
    have hlen : (if len == 0 then none else some (Json.int len.toNat)).all isSound = true := by
      split <;> rfl
    have hname : (name.map Json.str).all isSound = true := by cases name <;> rfl
    rw [toJson_eq, isSound, entries]
    simp only [soundEntries_append, soundEntries_optionalEntry, helem, hkey, hlen, hname]
    rfl

theorem required?_kind (type : Descriptor) :
    required? type.entries "kind" = some (.str type.kind.name) := by
  simp [required?, Record.optional?, entries]

theorem optional?_elem (type : Descriptor) :
    Record.optional? type.entries "elem" = some (type.elem.map toJson) :=
  optional?_of_filter (by simp [entries])

theorem optional?_key (type : Descriptor) :
    Record.optional? type.entries "key" = some (type.key.map toJson) :=
  optional?_of_filter (by simp [entries])

theorem optional?_len (type : Descriptor) : Record.optional? type.entries "len" =
    some (if type.len == 0 then none else some (.int type.len.toNat)) :=
  optional?_of_filter (by simp [entries])

theorem optional?_name (type : Descriptor) :
    Record.optional? type.entries "name" = some (type.name.map .str) :=
  optional?_of_filter (by simp [entries])

/-- A descriptor inside is less deep than the whole. -/
theorem depth_part_lt {type part : Descriptor} {name : String} {p : Option Descriptor}
    (h : Record.optional? type.entries name = some (p.map toJson)) (hp : p = some part) :
    part.toJson.depth < type.toJson.depth := by
  rw [hp] at h
  rw [toJson_eq type]
  exact depth_field_lt h

/-- A length of zero is left out, and a length that is left out is zero. -/
theorem fieldD?_len (hf : Faithful f) (type : Descriptor) {room : Nat}
    (hroom : depthEntries type.entries ≤ room) :
    fieldD? (nodes room type.entries) "len" f.word32? 0 = some type.len := by
  refine fieldD?_eq_some hroom type.optional?_len (fun hmissing => ?_) fun tree htree => ?_
  · simpa using hmissing
  · split at htree
    · cases htree
    · cases htree
      exact hf.reads_word32 type.len

theorem reads_toJson (hf : Faithful f) {fuel : Nat} {type : Descriptor}
    (h : type.toJson.depth ≤ fuel) : Reads (decode? f fuel) type.toJson type := by
  induction fuel generalizing type with
  | zero =>
    rw [toJson_eq] at h
    cases h
  | succ fuel ih =>
    -- The descriptors inside are less deep, so one less of the fuel is enough for them.
    have hpart {name : String} {p : Option Descriptor}
        (hp : Record.optional? type.entries name = some (p.map toJson)) (part : Descriptor)
        (hpart : p = some part) : Reads (decode? f fuel) part.toJson part :=
      ih (Nat.le_of_lt_succ (Nat.lt_of_lt_of_le (depth_part_lt hp hpart) h))
    rw [toJson_eq]
    refine reads_obj fun room hroom => ?_
    rw [decode?, hf.entries]
    simp only [Option.bind_eq_bind, Option.bind_some]
    rw [(hf.reads_choose (Kind.ofName?_name type.kind)).field? hroom type.required?_kind,
      hf.fieldD?_option hroom type.optional?_elem isNull_toJson (hpart type.optional?_elem),
      hf.fieldD?_option hroom type.optional?_key isNull_toJson (hpart type.optional?_key),
      type.fieldD?_len hf hroom,
      hf.fieldD?_option hroom type.optional?_name (fun _ => rfl) fun s _ => hf.reads_text s]
    obtain ⟨kind, elem, key, len, name⟩ := type
    rfl

end Descriptor

/-! ## Documents -/

theorem Field.reads_toJson (hf : Faithful f) {fuel : Nat} {field : Field}
    (h : field.toJson.depth ≤ fuel) : Reads (decode? f fuel) field.toJson field := by
  have htype : required? [("name", .str field.name), ("type", field.type.toJson)] "type" =
      some field.type.toJson := rfl
  have hdepth : field.type.toJson.depth ≤ fuel :=
    Nat.le_of_lt (Nat.lt_of_lt_of_le (depth_field_lt (optional?_of_required? htype)) h)
  refine reads_obj fun room hroom => ?_
  rw [decode?, hf.entries]
  simp only [Option.bind_eq_bind, Option.bind_some]
  rw [(hf.reads_text field.name).field? hroom rfl,
    (Descriptor.reads_toJson hf hdepth).field? hroom htype]
  rfl

namespace StructDef

/-- The entries of a struct: its name, the role when it states one, and its fields. -/
def entries (s : StructDef) : List (String × Json) :=
  [("name", .str s.name)] ++ optionalEntry "role" (s.stated.map (.str ·.name)) ++
    [("fields", .arr (s.fields.map Field.toJson))]

theorem required?_name (s : StructDef) : required? s.entries "name" = some (.str s.name) := by
  simp [required?, Record.optional?, entries]

theorem optional?_role (s : StructDef) :
    Record.optional? s.entries "role" = some (s.stated.map (.str ·.name)) :=
  optional?_of_filter (by simp [entries])

theorem optional?_fields (s : StructDef) :
    Record.optional? s.entries "fields" = some (some (.arr (s.fields.map Field.toJson))) := by
  simp [Record.optional?, entries]

theorem reads_toJson (hf : Faithful f) {fuel : Nat} {s : StructDef} (h : s.toJson.depth ≤ fuel) :
    Reads (decode? f fuel) s.toJson s := by
  have hfields : ∀ field ∈ s.fields, Reads (Field.decode? f fuel) field.toJson field := by
    intro field hfield
    have hdepth := depth_item_lt s.optional?_fields (List.mem_map_of_mem hfield)
    exact Field.reads_toJson hf (Nat.le_of_lt (Nat.lt_of_lt_of_le hdepth h))
  change Reads _ (.obj s.entries) s
  refine reads_obj fun room hroom => ?_
  rw [decode?, hf.entries]
  simp only [Option.bind_eq_bind, Option.bind_some]
  rw [(hf.reads_text s.name).field? hroom s.required?_name,
    hf.fieldD?_option hroom s.optional?_role (fun _ => rfl) fun role _ =>
      hf.reads_choose (Role.ofName?_name role),
    (hf.reads_list hfields).fieldD? hroom s.optional?_fields]
  rfl

end StructDef

namespace Document

theorem reads_toJson (hf : Faithful f) {fuel : Nat} {doc : Document}
    (h : doc.toJson.depth ≤ fuel) : Reads (decode? f fuel) doc.toJson doc := by
  have hfield : Record.optional? [("package", Json.str doc.package),
      ("structs", .arr (doc.structs.map StructDef.toJson))] "structs" =
        some (some (.arr (doc.structs.map StructDef.toJson))) := rfl
  have hstructs : ∀ s ∈ doc.structs, Reads (StructDef.decode? f fuel) s.toJson s := by
    intro s hs
    have hdepth := depth_item_lt hfield (List.mem_map_of_mem hs)
    exact StructDef.reads_toJson hf (Nat.le_of_lt (Nat.lt_of_lt_of_le hdepth h))
  refine reads_obj fun room hroom => ?_
  rw [decode?, hf.entries]
  simp only [Option.bind_eq_bind, Option.bind_some]
  rw [(hf.reads_text doc.package).field? hroom rfl, (hf.reads_list hstructs).fieldD? hroom hfield]
  rfl

end Document

end WireSchema
