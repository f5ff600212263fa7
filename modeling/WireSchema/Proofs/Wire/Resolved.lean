-- Names that lead to a struct, and names that do not. A finding about an unknown struct is made
-- from the descriptors of a document, and what looks a struct up goes by the layouts; both see the
-- same names. So where nothing is found, all that is done with a struct of the document stays
-- among structs that are there.
import WireSchema.Issue
import WireSchema.Proofs.Native.Expressible
import WireSchema.Proofs.Value.Conforms
import WireSchema.Proofs.Wire.Culprits
import WireSchema.Proofs.Wire.Exact

namespace WireSchema

open Outcome

/-! ## Names in layouts -/

namespace Layout

/-- The name of the struct that a layout is. -/
def type? : Layout → Option String
  | embedded type => some type
  | _ => none

/-- The names of the structs in a layout, keys before values. -/
def types (l : Layout) : List String := l.nodes.filterMap type?

variable {elem key value : Layout} {len : UInt32} {type : String}

@[simp]
theorem types_fixedArray : (fixedArray len elem).types = elem.types := rfl

@[simp]
theorem types_dynamicArray : (dynamicArray elem).types = elem.types := rfl

@[simp]
theorem types_map : (map key value).types = key.types ++ value.types := List.filterMap_append

@[simp]
theorem types_embedded : (embedded type).types = [type] := rfl

end Layout

/-! ## Names in descriptors -/

namespace Descriptor

variable {known : List String} {ty : Descriptor} {place : String}

/-- The unknown names in a type that is no struct are those in its key and in its element. -/
theorem unknownRefs_of_container (hkind : ty.kind ≠ .struct) :
    ty.unknownRefs known =
      ty.key.elim [] (unknownRefs known) ++ ty.elem.elim [] (unknownRefs known) := by
  obtain ⟨kind, elem, key, len, name⟩ := ty
  rw [unknownRefs.eq_def]
  dsimp only
  split
  next => exact absurd rfl hkind
  next => cases key <;> cases elem <;> rfl

theorem key_eq_none (hty : ty.check place = .ok ()) (hkey : ty.kind.needsKey = false) :
    ty.key = none := by
  obtain ⟨hflaw, -⟩ := check_eq_ok.1 hty
  obtain ⟨-, hneeds, -⟩ := flaw?_eq_none_iff.1 hflaw
  rw [hkey, Option.isSome_eq_false_iff, Option.isNone_iff_eq_none] at hneeds
  exact hneeds

theorem elem_eq_none (hty : ty.check place = .ok ()) (helem : ty.kind.needsElem = false) :
    ty.elem = none := by
  obtain ⟨hflaw, -⟩ := check_eq_ok.1 hty
  obtain ⟨hneeds, -, -⟩ := flaw?_eq_none_iff.1 hflaw
  rw [helem, Option.isSome_eq_false_iff, Option.isNone_iff_eq_none] at hneeds
  exact hneeds

/-- There are none in a sound type that is no struct and has no parts. -/
theorem unknownRefs_of_noElem (hty : ty.check place = .ok ()) (hkind : ty.kind ≠ .struct)
    (hkey : ty.kind.needsKey = false) (helem : ty.kind.needsElem = false) :
    ty.unknownRefs known = [] := by
  rw [unknownRefs_of_container hkind, key_eq_none hty hkey, elem_eq_none hty helem]
  rfl

/-- In a sound type without a key they are those in the element. -/
theorem unknownRefs_of_elem {elem : Descriptor} (hty : ty.check place = .ok ())
    (hkind : ty.kind ≠ .struct) (hkey : ty.kind.needsKey = false) (helem : ty.elem = some elem) :
    ty.unknownRefs known = elem.unknownRefs known := by
  rw [unknownRefs_of_container hkind, key_eq_none hty hkey, helem]
  rfl

/-- In a sound struct there is its own name, if it is unknown. -/
theorem unknownRefs_of_struct {type : String} (hty : ty.check place = .ok ())
    (hkind : ty.kind = .struct) (hname : ty.name? = some type) :
    ty.unknownRefs known = if known.contains type then [] else [type] := by
  obtain ⟨kind, elem, key, len, name⟩ := ty
  obtain rfl : kind = .struct := hkind
  obtain rfl : elem = none := elem_eq_none hty rfl
  obtain rfl : key = none := key_eq_none hty rfl
  rw [unknownRefs.eq_def]
  dsimp only
  rw [hname]
  dsimp only
  rw [List.append_nil, List.append_nil]

/-- The unknown names in a sound type are the names in its layout that are not known. -/
theorem unknownRefs_eq (hty : ty.check place = .ok ()) {s : Shape} (hs : ty.shape = .ok s) :
    ty.unknownRefs known = s.layout.types.filter fun type => !known.contains type := by
  fun_induction shape ty generalizing s place with
  | case1 =>
    cases hs
    exact unknownRefs_of_noElem hty (by simp) rfl rfl
  | case2 =>
    cases hs
    rw [unknownRefs_of_noElem hty (by simp) rfl rfl]
    split <;> rfl
  | case3 | case5 | case6 | case8 | case12 | case14 => cases hs
  | case4 elem _ len _ ih =>
    obtain ⟨e, he, hs⟩ := bind_eq_ok.1 hs
    cases hs
    rw [unknownRefs_of_elem hty (by simp) rfl rfl, ih ((check_eq_ok.1 hty).2.2 elem rfl) he]
    split <;> rfl
  | case7 value key len name ihk ihv =>
    obtain ⟨k, hk, hs⟩ := bind_eq_ok.1 hs
    obtain ⟨v, hv, hs⟩ := bind_eq_ok.1 hs
    cases hs
    have hkey := ihk ((check_eq_ok.1 hty).2.1 key rfl) hk
    have hvalue := ihv ((check_eq_ok.1 hty).2.2 value rfl) hv
    have hparts : unknownRefs known ⟨.map, some value, some key, len, name⟩ =
        key.unknownRefs known ++ value.unknownRefs known := unknownRefs_of_container (by simp)
    rw [hparts, hkey, hvalue, Shape.layout, Layout.types_map, List.filter_append]
  | case9 pointee _ _ _ scalar hkind =>
    cases hs
    have hscalar : pointee.kind ≠ .struct ∧ pointee.kind.needsKey = false ∧
        pointee.kind.needsElem = false := by
      generalize pointee.kind = kind at hkind
      cases kind <;> cases hkind <;> decide
    obtain ⟨hstruct, hkey, helem⟩ := hscalar
    have hpointee := (check_eq_ok.1 hty).2.2 pointee rfl
    rw [unknownRefs_of_elem hty (by simp) rfl rfl,
      unknownRefs_of_noElem hpointee hstruct hkey helem]
    rfl
  | case10 pointee _ _ _ _ ih =>
    rw [unknownRefs_of_elem hty (by simp) rfl rfl]
    exact ih ((check_eq_ok.1 hty).2.2 pointee rfl) hs
  | case11 elem key len name type hname =>
    cases hs
    rw [unknownRefs_of_struct hty rfl hname, Shape.layout, Layout.types_embedded,
      List.filter_singleton]
    cases known.contains type <;> rfl
  | case13 kind elem key len name _ _ _ _ _ _ _ _ _ hstruct scalar hkind =>
    cases hs
    have hscalar : kind ≠ .struct ∧ kind.needsKey = false ∧ kind.needsElem = false := by
      cases kind <;> cases hkind <;> decide
    exact unknownRefs_of_noElem hty hscalar.1 hscalar.2.1 hscalar.2.2

end Descriptor

/-! ## Findings about unknown structs -/

/-- The place and the name that a finding about an unknown struct tells. -/
def Issue.unknown? : Issue → Option (String × String)
  | unknownStruct location type => some (location, type)
  | _ => none

/-- The names in the layouts of fields that lead to no struct, each with its field. -/
def DocumentLayout.unresolved (d : DocumentLayout) : List (String × String) :=
  d.structs.flatMap fun s => s.fields.flatMap fun f =>
    (f.layout.types.filter fun type => (d.get? type).isNone).map (s.name ++ "." ++ f.name, ·)

/-- Lists that go together item by item are laid out to the same when their items are. -/
theorem flatMap_eq_of_forall₂ {α β γ : Type} {f : α → List γ} {g : β → List γ} {xs : List α}
    {ys : List β} (h : List.Forall₂ (fun x y => f x = g y) xs ys) :
    xs.flatMap f = ys.flatMap g := by
  have hmap : xs.map f = ys.map g := by
    rw [← List.forall₂_eq_eq_eq, List.forall₂_map_left_iff, List.forall₂_map_right_iff]
    exact h
  rw [List.flatMap_def, List.flatMap_def, hmap]

theorem unknown_endpointIssues (sides earlier : List Side) (s : StructDef) :
    (endpointIssues sides earlier s).filterMap Issue.unknown? = [] := by
  unfold endpointIssues
  split
  · rfl
  next role logical _ =>
    rw [List.filterMap_append, List.append_eq_nil_iff]
    constructor
    · split <;> rfl
    · cases role with
      | plain => rfl
      | request | response =>
        dsimp only
        split <;> rfl

theorem unknown_allEndpointIssues (sides earlier : List Side) (structs : List StructDef) :
    (allEndpointIssues sides earlier structs).filterMap Issue.unknown? = [] := by
  induction structs generalizing earlier with
  | nil => rfl
  | cons s structs ih =>
    rw [allEndpointIssues, List.filterMap_append, unknown_endpointIssues, ih, List.append_nil]

/-- What is found about a struct tells the unknown names in the types of its fields. -/
theorem StructDef.unknown_unknownStructs (known : List String) (s : StructDef) :
    (s.unknownStructs known).filterMap Issue.unknown? =
      s.fields.flatMap fun f => (f.type.unknownRefs known).map (s.name ++ "." ++ f.name, ·) := by
  unfold unknownStructs
  rw [List.filterMap_flatMap]
  refine List.flatMap_congr fun f _ => ?_
  rw [List.filterMap_map, ← List.filterMap_eq_map]
  rfl

/-- Among the findings those about unknown structs are made struct by struct. -/
theorem Document.unknown_issues (doc : Document) :
    doc.issues.filterMap Issue.unknown? =
      doc.messageStructs.flatMap fun s => s.fields.flatMap fun f =>
        (f.type.unknownRefs (doc.messageStructs.map StructDef.name)).map
          (s.name ++ "." ++ f.name, ·) := by
  have hmarkers : ((doc.structs.filter doc.isMarker).map fun s =>
      Issue.packageMarker s.name).filterMap Issue.unknown? = [] := by
    rw [List.filterMap_eq_nil_iff, List.forall_mem_map]
    exact fun _ _ => rfl
  unfold issues
  dsimp only
  rw [List.filterMap_append, List.filterMap_append, hmarkers, unknown_allEndpointIssues,
    List.filterMap_flatMap, List.nil_append]
  exact List.flatMap_congr fun s _ => s.unknown_unknownStructs _

/-- A name is known just where it leads to the layout of a struct. -/
theorem Document.contains_name_iff {doc : Document} {shapes : List StructShape}
    (h : List.Forall₂ StructDef.Shaped doc.messageStructs shapes) (type : String) :
    (doc.messageStructs.map StructDef.name).contains type =
      ((doc.layoutOf shapes).get? type).isSome := by
  have hnames : doc.messageStructs.map StructDef.name =
      (doc.layoutOf shapes).structs.map StructLayout.name := by
    rw [← List.forall₂_eq_eq_eq, List.forall₂_map_left_iff, List.forall₂_map_right_iff, layoutOf,
      List.forall₂_map_right_iff]
    exact h.imp fun s t hst => hst.name_eq.symm
  rw [hnames, Bool.eq_iff_iff, List.contains_iff_mem, Option.isSome_iff_exists,
    DocumentLayout.exists_get?]

/-- The findings about unknown structs are the names in the layouts that lead to no struct. -/
theorem Document.unknown_issues_eq {doc : Document} (hdoc : doc.check = .ok ())
    {shapes : List StructShape}
    (h : List.Forall₂ StructDef.Shaped doc.messageStructs shapes) :
    doc.issues.filterMap Issue.unknown? = (doc.layoutOf shapes).unresolved := by
  have hstructs := (List.forall₂_and_left ..).2 ⟨check_of_check hdoc, h⟩
  rw [unknown_issues, DocumentLayout.unresolved]
  refine flatMap_eq_of_forall₂ (List.forall₂_map_right_iff.2 (hstructs.imp ?_))
  rintro s t ⟨hcheck, hshaped⟩
  have hfields := (List.forall₂_and_left ..).2 ⟨StructDef.check_of_check hcheck, hshaped.fields⟩
  refine flatMap_eq_of_forall₂ (List.forall₂_map_right_iff.2 (hfields.imp ?_))
  rintro f g ⟨htype, hname, hshape⟩
  have hunknown : (fun type => !(doc.messageStructs.map StructDef.name).contains type) =
      fun type => ((doc.layoutOf shapes).get? type).isNone := by
    funext type
    rw [contains_name_iff h, Option.not_isSome]
  rw [Descriptor.unknownRefs_eq htype hshape, hunknown, ← hname, ← hshaped.name_eq]
  rfl

/-! ## Structs that are there -/

/-- Every name in a layout leads to a struct. -/
def Layout.Resolves (d : DocumentLayout) (l : Layout) : Prop :=
  ∀ type ∈ l.types, ∃ s, d.get? type = some s

/-- Every name in the layout of a field does. -/
def DocumentLayout.Resolves (d : DocumentLayout) : Prop :=
  ∀ s ∈ d.structs, ∀ f ∈ s.fields, f.layout.Resolves d

variable {d : DocumentLayout}

theorem DocumentLayout.resolves_of_unresolved (h : d.unresolved = []) : d.Resolves := by
  intro s hs f hf type htype
  have hnone := List.flatMap_eq_nil_iff.1 (List.flatMap_eq_nil_iff.1 h s hs) f hf
  have hthere := List.filter_eq_nil_iff.1 (List.map_eq_nil_iff.1 hnone) type htype
  rw [Option.isNone_iff_eq_none] at hthere
  exact Option.ne_none_iff_exists'.1 hthere

theorem DocumentLayout.Resolves.field (hd : d.Resolves) {type : String} {s : StructLayout}
    (hs : d.get? type = some s) {f : FieldLayout} (hf : f ∈ s.fields) : f.layout.Resolves d :=
  hd s (List.mem_of_find?_eq_some hs) f hf

/-- From spots whose names lead to structs one comes to no others. -/
theorem Spot.Holds.resolves {a b : Spot} (h : a.Holds d b) (hd : d.Resolves)
    (ha : a.layout.Resolves d) : b.layout.Resolves d := by
  cases h with
  | fixedItem i =>
    rw [Layout.Resolves, Layout.types_fixedArray] at ha
    exact ha
  | item i =>
    rw [Layout.Resolves, Layout.types_dynamicArray] at ha
    exact ha
  | key i =>
    rw [Layout.Resolves, Layout.types_map, List.forall_mem_append] at ha
    exact ha.1
  | value i =>
    rw [Layout.Resolves, Layout.types_map, List.forall_mem_append] at ha
    exact ha.2
  | field _ hs hf => exact hd.field hs hf

theorem Tour.Reaches.resolves {α σ : Type} {t : Tour d α σ} {a b : α} {s s' : σ}
    (h : t.Reaches a s b s') (hd : d.Resolves) (ha : (t.spot a).layout.Resolves d) :
    (t.spot b).layout.Resolves d :=
  h.induct (P := fun a => (t.spot a).layout.Resolves d)
    (fun hown ha b hb => (t.holds hown b hb).resolves hd ha) ha

theorem Layout.resolves_embedded {type : String} :
    (Layout.embedded type).Resolves d ↔ ∃ s, d.get? type = some s := by
  rw [Resolves, types_embedded, List.forall_mem_singleton]

namespace Wire

variable {α β : Type}

/-- A computation that does not come upon a struct that is not there. -/
def FindsAll (x : Except WireError α) : Prop := ∀ type, x ≠ .error (.unknownType type)

theorem FindsAll.ok (a : α) : FindsAll (.ok a : Except WireError α) := by
  intro type h
  cases h

theorem FindsAll.bind {x : Except WireError α} {f : α → Except WireError β} (hx : FindsAll x)
    (hf : ∀ a, x = .ok a → FindsAll (f a)) : FindsAll (x >>= f) := by
  intro type h
  rcases bind_eq_error.1 h with hx' | ⟨a, ha, hf'⟩
  · exact hx type hx'
  · exact hf a ha type hf'

theorem FindsAll.map {x : Except WireError α} (h : FindsAll x) (f : α → β) :
    FindsAll (x.map f) := by
  intro type hmap
  cases x with
  | ok a => cases hmap
  | error e =>
    cases hmap
    exact h type rfl

theorem FindsAll.mapM {f : α → Except WireError β} {xs : List α}
    (h : ∀ x ∈ xs, FindsAll (f x)) : FindsAll (xs.mapM f) := by
  intro type hxs
  obtain ⟨x, hx, hfx⟩ := mapM_eq_error hxs
  exact h x hx type hfx

/-- A value whose layout leads to structs has no part that is a struct that is not there. -/
theorem findsAll_parts {a : Spot × Value} (ha : a.1.layout.Resolves d) : FindsAll (parts d a) := by
  intro type h
  obtain ⟨⟨hl, hnone⟩, -⟩ := blames_of_parts h
  rw [hl, Layout.resolves_embedded, hnone] at ha
  obtain ⟨s, hs⟩ := ha
  cases hs

end Wire

/-! ## Trees -/

namespace Value

open Wire

variable {path : Path} {tree : Json}

theorem findsAll_scalarOfJson (scalar : Scalar) : FindsAll (scalarOfJson scalar path tree) := by
  unfold scalarOfJson
  cases scalar with
  | bool | f32 | f64 =>
    dsimp only
    split <;> intro _ h <;> cases h
  | i8 | i16 | i32 | i64 | u8 | u16 | u32 | u64 =>
    dsimp only
    split
    · split <;> intro _ h <;> cases h
    · intro _ h
      cases h

theorem findsAll_byteOfJson : FindsAll (byteOfJson path tree) := by
  unfold byteOfJson
  split
  · split <;> intro _ h <;> cases h
  · intro _ h
    cases h

theorem findsAll_bytesOfJson : FindsAll (bytesOfJson path tree) := by
  unfold bytesOfJson
  split
  · split <;> intro _ h <;> cases h
  · exact .mapM fun x _ => findsAll_byteOfJson
  · intro _ h
    cases h

theorem findsAll_keyTree (key : String) (l : Layout) : FindsAll (keyTree path key l) := by
  unfold keyTree
  split
  · intro _ h
    cases h
  · intro _ h
    cases h
  · intro _ h
    cases h
  · split <;> intro _ h <;> cases h

theorem findsAll_itemsOfJson : FindsAll (itemsOfJson path tree) := by
  unfold itemsOfJson
  split <;> intro _ h <;> cases h

theorem findsAll_entriesOfJson : FindsAll (entriesOfJson path tree) := by
  unfold entriesOfJson
  split <;> intro _ h <;> cases h

/-- Reading a value from a tree finds all structs, if that is so for the structs in the layout. -/
theorem findsAll_ofTree {onStruct : StructOfJson} {l : Layout}
    (h : ∀ type ∈ l.types, ∀ path tree, FindsAll (onStruct type path tree)) :
    FindsAll (ofTree onStruct l path tree) := by
  induction l generalizing path tree with
  | fixed scalar => exact findsAll_scalarOfJson scalar
  | nullable scalar =>
    unfold ofTree
    split
    · intro _ h
      cases h
    · exact findsAll_scalarOfJson scalar
  | string =>
    unfold ofTree
    split <;> intro _ h <;> cases h
  | fixedBytes len | dynamicBytes => exact findsAll_bytesOfJson.map _
  | fixedArray len elem ih | dynamicArray elem ih =>
    refine findsAll_itemsOfJson.bind fun items _ => ?_
    exact (FindsAll.mapM fun x _ => ih h).bind fun xs _ => .ok _
  | map key value ihk ihv =>
    rw [Layout.types_map, List.forall_mem_append] at h
    obtain ⟨hkey, hvalue⟩ := h
    unfold ofTree
    split
    · refine (FindsAll.mapM fun entry _ => ?_).bind fun es _ => .ok _
      refine (findsAll_keyTree _ _).bind fun keyTree _ => ?_
      exact (ihk hkey).bind fun k _ => (ihv hvalue).bind fun v _ => .ok _
    · refine (FindsAll.mapM fun pair _ => ?_).bind fun es _ => .ok _
      split
      · exact (ihk hkey).bind fun k _ => (ihv hvalue).bind fun v _ => .ok _
      · intro _ h
        cases h
    · intro _ h
      cases h
  | embedded type => exact h type (List.mem_singleton_self type) path tree

/-- Where all names lead to structs, reading one from a tree finds all structs in it. -/
theorem findsAll_structOfTree (hd : d.Resolves) {type : String} (fuel : Nat)
    (htype : ∃ s, d.get? type = some s) : FindsAll (structOfTree d fuel type path tree) := by
  induction fuel generalizing type path tree with
  | zero =>
    intro _ h
    cases h
  | succ fuel ih =>
    obtain ⟨s, hs⟩ := htype
    unfold structOfTree
    rw [hs]
    dsimp only
    refine findsAll_entriesOfJson.bind fun entries _ => ?_
    split
    · intro _ h
      cases h
    · refine (FindsAll.mapM fun f hf => ?_).bind fun fields _ => .ok _
      unfold fieldOfTree
      split
      · exact (findsAll_ofTree fun inner hinner _ _ => ih (hd.field hs hf inner hinner)).bind
          fun v _ => .ok _
      · split <;> intro _ h <;> cases h

end Value

namespace Codec

open Wire

variable {c : Codec} {type : String}

theorem findsAll_size (hc : c.layouts.Resolves) (htype : ∃ s, c.layouts.get? type = some s)
    (v : Value) : FindsAll (c.size type v) := by
  intro missing h
  obtain ⟨a, hreach, hparts⟩ := size_eq_error.1 h
  exact findsAll_parts (hreach.resolves hc (Layout.resolves_embedded.2 htype)) missing hparts

theorem findsAll_marshal (hc : c.layouts.Resolves) (htype : ∃ s, c.layouts.get? type = some s)
    (v : Value) (buf : List UInt8) (offset : Nat) : FindsAll (c.marshal type v buf offset).2 := by
  intro missing h
  obtain ⟨a, w, hreach, hown⟩ := marshal_eq_error.1 h
  rcases error_of_own hown with hparts | ⟨_, _, _, _, hbounds⟩
  · exact findsAll_parts (hreach.resolves hc (Layout.resolves_embedded.2 htype)) missing hparts
  · cases hbounds

theorem findsAll_unmarshal (hc : c.layouts.Resolves) (htype : ∃ s, c.layouts.get? type = some s)
    (buf : List UInt8) (offset : Nat) : FindsAll (c.unmarshal type buf offset) := by
  intro missing h
  obtain ⟨a, input, hreach, hown⟩ := unmarshal_eq_error.1 h
  have ha : a.layout.Resolves c.layouts := hreach.resolves hc (Layout.resolves_embedded.2 htype)
  rcases error_of_announced hown with hbuffer | ⟨inner, hl, ⟨-, h⟩ | ⟨hnone, -⟩⟩
  · exact hbuffer.elim
  · cases h
  · rw [hl, Layout.resolves_embedded, hnone] at ha
    obtain ⟨s, hs⟩ := ha
    cases hs

theorem findsAll_encode (hc : c.layouts.Resolves) (htype : ∃ s, c.layouts.get? type = some s)
    (v : Value) : FindsAll (c.encode type v) := by
  intro missing h
  exact findsAll_size hc htype v missing (size_of_encode_error h)

theorem findsAll_valueOfJson (hc : c.layouts.Resolves) (htype : ∃ s, c.layouts.get? type = some s)
    (tree : Json) : FindsAll (c.valueOfJson type tree) :=
  Value.findsAll_structOfTree hc tree.weight htype

/-- All that a codec does with a struct finds all structs that it comes upon. -/
structure FindsAllFrom (c : Codec) (type : String) : Prop where
  size : ∀ v, FindsAll (c.size type v)
  encode : ∀ v, FindsAll (c.encode type v)
  marshal : ∀ v buf offset, FindsAll (c.marshal type v buf offset).2
  unmarshal : ∀ buf offset, FindsAll (c.unmarshal type buf offset)
  valueOfJson : ∀ tree, FindsAll (c.valueOfJson type tree)

theorem findsAllFrom (hc : c.layouts.Resolves) (htype : ∃ s, c.layouts.get? type = some s) :
    c.FindsAllFrom type where
  size := findsAll_size hc htype
  encode := findsAll_encode hc htype
  marshal := findsAll_marshal hc htype
  unmarshal := findsAll_unmarshal hc htype
  valueOfJson := findsAll_valueOfJson hc htype

end Codec

namespace Document

/-- The findings about unknown structs in a document that passes are the names in the layouts of
its fields that lead to no struct, in order, each with its field and as often as it stands there.
Where there are none, all that the codec of the document does with one of its structs finds the
structs that it comes upon. -/
theorem unknown_structs_are_unresolved (doc : Document) (hdoc : doc.check = .ok ()) :
    ∃ c, Codec.ofDocument doc = .ok c ∧ doc.layout = .ok c.layouts ∧
      doc.issues.filterMap Issue.unknown? = c.layouts.unresolved ∧
      (doc.issues.filterMap Issue.unknown? = [] →
        ∀ s ∈ doc.messageStructs, c.FindsAllFrom s.name) := by
  obtain ⟨shapes, hshapes, -⟩ := shapes_of_check hdoc
  have hlayout := layout_of_shaped hshapes
  have hissues := unknown_issues_eq hdoc hshapes
  refine ⟨Codec.ofLayout (doc.layoutOf shapes), ?_, hlayout, hissues, fun hnone s hs => ?_⟩
  · rw [Codec.ofDocument, hlayout]
  · refine Codec.findsAllFrom (DocumentLayout.resolves_of_unresolved (hissues.symm.trans hnone)) ?_
    have hknown : (doc.messageStructs.map StructDef.name).contains s.name = true :=
      List.contains_iff_mem.2 (List.mem_map_of_mem hs)
    rw [contains_name_iff hshapes, Option.isSome_iff_exists] at hknown
    exact hknown

/-- A document with a struct that holds a map from structs to pointers to structs. -/
def referringDocument (key value : String) : Document :=
  ⟨"p", [⟨"S", none, [⟨"M", ⟨.map,
      some ⟨.pointer, some ⟨.struct, none, none, 0, some value⟩, none, 0, none⟩,
      some ⟨.struct, none, none, 0, some key⟩, 0, none⟩⟩]⟩,
    ⟨"T", none, [⟨"N", .ofKind .uint8⟩]⟩]⟩

/-- An unknown key is found before an unknown value, and measuring an entry comes upon it. With
structs that are there nothing is found, also where one refers to itself. -/
theorem an_unknown_key_is_found_before_an_unknown_value :
    (referringDocument "K" "U").check = .ok () ∧
    (referringDocument "K" "U").issues.filterMap Issue.unknown? = [("S.M", "K"), ("S.M", "U")] ∧
    (∃ c, Codec.ofDocument (referringDocument "K" "U") = .ok c ∧
      c.layouts.unresolved = [("S.M", "K"), ("S.M", "U")] ∧
      c.size "S" (.struct [("M", .map [(.struct [], .null)])]) = .error (.unknownType "K")) ∧
    (referringDocument "T" "S").check = .ok () ∧
    ∃ c, Codec.ofDocument (referringDocument "T" "S") = .ok c ∧ c.layouts.unresolved = [] ∧
      c.FindsAllFrom "S" := by
  have hdangling : (referringDocument "K" "U").check = .ok () := by rfl
  have hissues : (referringDocument "K" "U").issues.filterMap Issue.unknown? =
      [("S.M", "K"), ("S.M", "U")] := by decide
  have hclosed : (referringDocument "T" "S").check = .ok () := by rfl
  have hnone : (referringDocument "T" "S").issues.filterMap Issue.unknown? = [] := by decide
  obtain ⟨c, hc, -, hunresolved, -⟩ := unknown_structs_are_unresolved _ hdangling
  obtain ⟨c', hc', -, hunresolved', hall⟩ := unknown_structs_are_unresolved _ hclosed
  have hfrom := hall hnone _ (List.mem_filter.2 ⟨List.mem_cons_self .., by decide⟩)
  refine ⟨hdangling, hissues, ⟨c, hc, hunresolved.symm.trans hissues, ?_⟩, hclosed, c', hc',
    hunresolved'.symm.trans hnone, hfrom⟩
  cases hc
  rfl

end Document

end WireSchema
