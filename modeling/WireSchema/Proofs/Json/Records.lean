-- Records that are written as JSON trees and read again: each field is found under its name, and
-- the tree holds it with a level to spare.
import WireSchema.Layout.Codec
import WireSchema.Schema.Codec

namespace WireSchema

/-! ## Fields by name -/

namespace Record

variable {ν μ α : Type} {entries : List (String × ν)} {field other : String}

theorem mem_of_optional? {v : ν} (h : optional? entries field = some (some v)) :
    ∃ e ∈ entries, e.2 = v := by
  unfold optional? at h
  split at h
  · cases h
  · rename_i name w hfilter
    cases h
    have hmem : (name, v) ∈ entries.filter (·.1 == field) := by
      rw [hfilter]
      exact List.mem_singleton_self _
    exact ⟨(name, v), (List.mem_filter.1 hmem).1, rfl⟩
  · cases h

theorem optional?_of_required? {v : ν} (h : required? entries field = some v) :
    optional? entries field = some (some v) := by
  unfold required? at h
  cases hv : optional? entries field with
  | none => rw [hv] at h; cases h
  | some w => rw [hv] at h; exact congrArg some h

theorem optional?_map (g : ν → μ) (entries : List (String × ν)) (field : String) :
    optional? (entries.map fun e => (e.1, g e.2)) field =
      (optional? entries field).map (Option.map g) := by
  have hfilter : (entries.map fun e => (e.1, g e.2)).filter (·.1 == field) =
      (entries.filter (·.1 == field)).map fun e => (e.1, g e.2) := List.filter_map ..
  rw [optional?, optional?, hfilter]
  generalize entries.filter (·.1 == field) = found
  rcases found with _ | ⟨_, _ | _⟩ <;> rfl

@[simp]
theorem field?_cons_of_ne {v : ν} {decode : ν → Option α} (h : other ≠ field) :
    field? ((other, v) :: entries) field decode = field? entries field decode := by
  simp [field?, required?, optional?, h]

@[simp]
theorem field?_cons_self {v : ν} {decode : ν → Option α}
    (h : entries.filter (·.1 == field) = []) :
    field? ((field, v) :: entries) field decode = decode v := by
  simp [field?, required?, optional?, given?, h]

@[simp]
theorem field?_singleton {v : ν} {decode : ν → Option α} :
    field? [(field, v)] field decode = decode v :=
  field?_cons_self rfl

end Record

@[simp]
theorem filter_optionalEntry (name field : String) (j : Option Json) :
    (optionalEntry name j).filter (·.1 == field) =
      if name = field then optionalEntry name j else [] := by
  cases j <;> simp [optionalEntry, List.filter_cons]

/-- A part that may be left out is found again when no other entry bears its name. -/
theorem optional?_of_filter {entries : List (String × Json)} {field : String} {j : Option Json}
    (h : entries.filter (·.1 == field) = optionalEntry field j) :
    Record.optional? entries field = some j := by
  rw [Record.optional?, h]
  cases j <;> rfl

namespace Json

open Record

variable {entries : List (String × Json)} {name : String} {items : List Json} {tree : Json}

/-! ## Depths -/

theorem depth_le_of_mem_items (h : tree ∈ items) : tree.depth ≤ depthItems items := by
  induction items with
  | nil => cases h
  | cons x xs ih =>
    rw [depthItems]
    obtain rfl | h := List.mem_cons.1 h
    · exact Nat.le_max_left ..
    · exact Nat.le_trans (ih h) (Nat.le_max_right ..)

theorem depth_le_of_mem_entries {e : String × Json} (h : e ∈ entries) :
    e.2.depth ≤ depthEntries entries := by
  induction entries with
  | nil => cases h
  | cons x xs ih =>
    rw [depthEntries]
    obtain rfl | h := List.mem_cons.1 h
    · exact Nat.le_max_left ..
    · exact Nat.le_trans (ih h) (Nat.le_max_right ..)

theorem depth_le_of_optional? (h : Record.optional? entries name = some (some tree)) :
    tree.depth ≤ depthEntries entries := by
  obtain ⟨e, he, rfl⟩ := mem_of_optional? h
  exact depth_le_of_mem_entries he

/-- A field is less deep than the record. -/
theorem depth_field_lt (h : Record.optional? entries name = some (some tree)) :
    tree.depth < (Json.obj entries).depth := by
  rw [depth]
  exact Nat.lt_succ_of_le (depth_le_of_optional? h)

/-- An item in a field is less deep than the record. -/
theorem depth_item_lt (h : Record.optional? entries name = some (some (.arr items)))
    (htree : tree ∈ items) : tree.depth < (Json.obj entries).depth := by
  have hfield := depth_field_lt h
  have hitem := depth_le_of_mem_items htree
  rw [depth] at hfield
  omega

/-! ## Literals -/

theorem soundEntries_append (xs ys : List (String × Json)) :
    soundEntries (xs ++ ys) = (soundEntries xs && soundEntries ys) := by
  induction xs with
  | nil => rfl
  | cons x xs ih => rw [List.cons_append, soundEntries, soundEntries, ih, Bool.and_assoc]

theorem soundEntries_optionalEntry (name : String) (j : Option Json) :
    soundEntries (optionalEntry name j) = j.all isSound := by
  cases j with
  | none => rfl
  | some j => rw [optionalEntry, soundEntries, soundEntries, Bool.and_true, Option.all_some]

/-! ## Reading what was written -/

variable {α : Type} {decode : Node → Option α} {x : α} {room : Nat}

/-- The tree is read as the value wherever there is room for all its levels. -/
def Reads (decode : Node → Option α) (tree : Json) (x : α) : Prop :=
  ∀ room, tree.depth ≤ room → decode ⟨tree, room⟩ = some x

theorem Reads.decodeTree? (h : Reads decode tree x) : decodeTree? decode tree = some x :=
  h _ (Nat.le_refl _)

/-- The entries of a record with the room that is left inside of it. -/
def nodes (room : Nat) (entries : List (String × Json)) : List (String × Node) :=
  entries.map fun e => (e.1, ⟨e.2, room⟩)

theorem Node.entries?_obj (fields : List String) :
    Node.entries? fields ⟨.obj entries, room + 1⟩ = some (nodes room entries) :=
  rfl

theorem optional?_nodes (room : Nat) (entries : List (String × Json)) (name : String) :
    Record.optional? (nodes room entries) name =
      (Record.optional? entries name).map (Option.map (⟨·, room⟩)) :=
  optional?_map (fun tree => (⟨tree, room⟩ : Node)) entries name

/-- A record is entered with one level less. -/
theorem reads_obj
    (h : ∀ room, depthEntries entries ≤ room → decode ⟨.obj entries, room + 1⟩ = some x) :
    Reads decode (.obj entries) x := by
  intro room hroom
  rw [depth] at hroom
  obtain ⟨room, rfl⟩ := Nat.exists_eq_add_of_le' (Nat.le_of_add_left_le hroom)
  exact h room (Nat.le_of_add_le_add_right hroom)

/-- A field that must be there is read as it was written. -/
theorem Reads.field? (h : Reads decode tree x) (hroom : depthEntries entries ≤ room)
    (htree : required? entries name = some tree) :
    field? (nodes room entries) name decode = some x := by
  have hfield := optional?_of_required? htree
  have hnode : required? (nodes room entries) name = some ⟨tree, room⟩ := by
    rw [required?, optional?_nodes, hfield]
    rfl
  rw [Record.field?, hnode]
  exact h room (Nat.le_trans (depth_le_of_optional? hfield) hroom)

/-- A field that may be missing is read as it was written, or has the value that stands for it. -/
theorem fieldD?_eq_some {default : α} {part : Option Json} (hroom : depthEntries entries ≤ room)
    (hpart : Record.optional? entries name = some part) (hmissing : part = none → x = default)
    (h : ∀ tree, part = some tree → Reads decode tree x) :
    fieldD? (nodes room entries) name decode default = some x := by
  rw [fieldD?, optional?_nodes, hpart]
  cases part with
  | none => exact congrArg some (hmissing rfl).symm
  | some tree => exact h tree rfl room (Nat.le_trans (depth_le_of_optional? hpart) hroom)

theorem Reads.fieldD? (h : Reads decode tree x) {default : α} (hroom : depthEntries entries ≤ room)
    (htree : Record.optional? entries name = some (some tree)) :
    fieldD? (nodes room entries) name decode default = some x :=
  fieldD?_eq_some hroom htree nofun fun _ hpart => Option.some.inj hpart ▸ h

theorem mapM_map_eq_some {ν : Type} {decode : ν → Option α} {encode : α → ν} {xs : List α}
    (h : ∀ x ∈ xs, decode (encode x) = some x) : (xs.map encode).mapM decode = some xs := by
  induction xs with
  | nil => rfl
  | cons x xs ih =>
    obtain ⟨hx, hxs⟩ := List.forall_mem_cons.1 h
    rw [List.map_cons, List.mapM_cons, hx, ih hxs]
    rfl

/-! ## Formats -/

/-- A format that takes each part of a tree for what it was written as. -/
structure Faithful (f : Format Option Node) : Prop where
  text : ∀ s room, f.text? ⟨.str s, room⟩ = some s
  natural : ∀ (n room : Nat), f.natural? ⟨.int n, room⟩ = some n
  choice : ∀ s room, f.choice? ⟨.str s, room⟩ = some s
  present : ∀ tree room, tree.isNull = false → f.present? ⟨tree, room⟩ = some (some ⟨tree, room⟩)
  items : ∀ items room, f.items? ⟨.arr items, room + 1⟩ = some (items.map (⟨·, room⟩))
  entries : ∀ fields entries room,
    f.entries? fields ⟨.obj entries, room + 1⟩ = some (nodes room entries)

theorem faithful_format : Faithful format where
  text _ _ := rfl
  natural _ _ := rfl
  choice _ _ := rfl
  present _ _ h := congrArg some (if_neg (Bool.not_eq_true _ ▸ h))
  items _ _ := rfl
  entries _ _ _ := rfl

theorem faithful_heldFormat : Faithful heldFormat where
  text _ _ := rfl
  natural _ _ := rfl
  choice _ _ := rfl
  present := faithful_format.present
  items _ _ := rfl
  entries _ _ _ := rfl

namespace Faithful

variable {f : Format Option Node} (hf : Faithful f)

include hf

theorem reads_text (s : String) : Reads f.text? (.str s) s := fun room _ => hf.text s room

theorem reads_word32 (n : UInt32) : Reads f.word32? (.int n.toNat) n := by
  intro room _
  rw [Format.word32?, hf.natural]
  have hn : n.toNat < UInt32.size := n.toNat_lt
  simp [Record.given?, hn]

theorem reads_word64 (n : UInt64) : Reads f.word64? (.int n.toNat) n := by
  intro room _
  rw [Format.word64?, hf.natural]
  exact Width.ofNat?_eq_some_iff.2 rfl

theorem reads_choose {ofName? : String → Option α} {name : String} (h : ofName? name = some x) :
    Reads (f.choose? ofName?) (.str name) x := by
  intro room _
  rw [Format.choose?, hf.choice]
  exact h

theorem reads_option (h : Reads decode tree x) (hnull : tree.isNull = false) :
    Reads (f.option? decode) tree (some x) := by
  intro room hroom
  rw [Format.option?, hf.present tree room hnull]
  change (decode ⟨tree, room⟩).bind (some ∘ some) = _
  rw [h room hroom]
  rfl

/-- A field for a part that may be left out is read again, whether or not the part is there. -/
theorem fieldD?_option {encode : α → Json} {part : Option α} (hroom : depthEntries entries ≤ room)
    (hpart : Record.optional? entries name = some (part.map encode))
    (hnull : ∀ x, (encode x).isNull = false)
    (h : ∀ x, part = some x → Reads decode (encode x) x) :
    fieldD? (nodes room entries) name (f.option? decode) none = some part := by
  refine fieldD?_eq_some hroom hpart Option.map_eq_none_iff.1 fun tree htree => ?_
  obtain ⟨x, rfl, rfl⟩ := Option.map_eq_some_iff.1 htree
  exact hf.reads_option (h x rfl) (hnull x)

theorem reads_list {encode : α → Json} {xs : List α} (h : ∀ x ∈ xs, Reads decode (encode x) x) :
    Reads (f.list? decode) (.arr (xs.map encode)) xs := by
  intro room hroom
  rw [depth] at hroom
  obtain ⟨room, rfl⟩ := Nat.exists_eq_add_of_le' (Nat.le_of_add_left_le hroom)
  have hitems := Nat.le_of_add_le_add_right hroom
  rw [Format.list?, hf.items, List.map_map]
  refine mapM_map_eq_some fun x hx => h x hx room ?_
  exact Nat.le_trans (depth_le_of_mem_items (List.mem_map_of_mem hx)) hitems

end Faithful

/-! ## Tagged records -/

/-- A tag is found again when no field bears its name, and the fields are all that is left. -/
theorem tagged?_bind {tag variant : String} {variants : List String} {fields : List (String × Json)}
    {k : String × Body → Option α} (held : Bool) (hvariant : variants.contains variant = true)
    (hfields : fields.filter (·.1 == tag) = []) :
    (tagged? tag variants held (.obj ((tag, .str variant) :: fields)) >>= k) =
      k (variant, .named fields) := by
  have htag : required? ((tag, .str variant) :: fields) tag = some (.str variant) := by
    simp [required?, Record.optional?, hfields]
  have hrest : ((tag, .str variant) :: fields).filter (·.1 != tag) = fields := by
    rw [List.filter_cons_of_neg (by simp), List.filter_eq_self]
    intro e he
    simpa using List.filter_eq_nil_iff.1 hfields e he
  have hname : variant? variants held (.str variant) = some variant := if_pos hvariant
  rw [tagged?, htag, hrest]
  change ((variant? variants held (.str variant)).bind _).bind k = _
  rw [hname]
  rfl

end Json

end WireSchema
