-- What Rust code can express. The checks walk descriptors, through pointers and into keys, but what
-- they decide is a matter of layouts: no map may have keys with a part that has no exact equality.
-- Beside that only names matter, those of the structs and those of the fields after spelling.
import WireSchema.Generate
import WireSchema.Proofs.Schema.Checked

namespace WireSchema

open Outcome

/-! ## Keys in layouts -/

namespace Layout

/-- The layout and all layouts inside it, keys before values. -/
def nodes : Layout → List Layout
  | fixedArray len elem => fixedArray len elem :: elem.nodes
  | dynamicArray elem => dynamicArray elem :: elem.nodes
  | map key value => map key value :: (key.nodes ++ value.nodes)
  | l => [l]

/-- The outermost level has an exact equality: it is no float, no map and no struct. -/
def isExact : Layout → Bool
  | fixed .f32 | fixed .f64 | nullable .f32 | nullable .f64 | map _ _ | embedded _ => false
  | _ => true

/-- All parts of the layout have an exact equality. -/
def AllExact (l : Layout) : Prop := ∀ part ∈ l.nodes, part.isExact = true

/-- The keys of all maps in the layout have an exact equality, in maps inside keys too. -/
def KeysExact (l : Layout) : Prop := ∀ key value, map key value ∈ l.nodes → key.AllExact

variable {l elem key value : Layout} {len : UInt32}

theorem allExact_of_nodes (h : l.nodes = [l]) : l.AllExact ↔ l.isExact = true := by
  rw [AllExact, h, List.forall_mem_singleton]

theorem allExact_fixedArray : (fixedArray len elem).AllExact ↔ elem.AllExact := by
  simp [AllExact, nodes, isExact]

theorem allExact_dynamicArray : (dynamicArray elem).AllExact ↔ elem.AllExact := by
  simp [AllExact, nodes, isExact]

theorem not_allExact_map : ¬ (map key value).AllExact := by
  simp [AllExact, nodes, isExact]

theorem keysExact_fixedArray : (fixedArray len elem).KeysExact ↔ elem.KeysExact := by
  simp [KeysExact, nodes]

theorem keysExact_dynamicArray : (dynamicArray elem).KeysExact ↔ elem.KeysExact := by
  simp [KeysExact, nodes]

theorem keysExact_map :
    (map key value).KeysExact ↔ key.AllExact ∧ key.KeysExact ∧ value.KeysExact := by
  simp only [KeysExact, nodes, List.mem_cons, List.mem_append, map.injEq]
  constructor
  · intro h
    refine ⟨h key value (.inl ⟨rfl, rfl⟩), fun k v hkv => ?_, fun k v hkv => ?_⟩
    · exact h k v (.inr (.inl hkv))
    · exact h k v (.inr (.inr hkv))
  · rintro ⟨hkey, hkeys, hvalues⟩ k v (⟨rfl, rfl⟩ | hkv | hkv)
    · exact hkey
    · exact hkeys k v hkv
    · exact hvalues k v hkv

/-- A layout without layouts inside has no keys: it is no map, since a map has its key inside. -/
theorem keysExact_of_nodes (h : l.nodes = [l]) : l.KeysExact := by
  intro key value hmem
  rw [h] at hmem
  obtain rfl := List.mem_singleton.1 hmem
  have hinside : key.nodes ++ value.nodes = [] := (List.cons.inj h).2
  have hkey : key.nodes = [] := (List.append_eq_nil_iff.1 hinside).1
  cases key <;> cases hkey

end Layout

namespace Native

/-! ## Checks of types -/

theorem isHashable_of_ofKind? {ty : Descriptor} {scalar : Scalar}
    (h : Scalar.ofKind? ty.kind = some scalar) :
    isHashable ty = (Layout.fixed scalar).isExact := by
  obtain ⟨kind, elem, key, len, name⟩ := ty
  cases kind <;> cases h <;> rfl

/-- Values of a type can be keys when all parts of its layout have an exact equality. -/
theorem isHashable_iff {ty : Descriptor} {s : Shape} (hs : ty.shape = .ok s) :
    isHashable ty = true ↔ s.layout.AllExact := by
  fun_induction Descriptor.shape ty generalizing s with
  | case1 | case11 =>
    cases hs
    rw [isHashable, Shape.layout, Layout.allExact_of_nodes rfl]
    rfl
  | case2 _ _ len _ =>
    cases hs
    rw [isHashable]
    split
    · rw [Shape.layout, Layout.allExact_of_nodes rfl]
      rfl
    · rw [Shape.layout, Layout.allExact_of_nodes rfl]
      rfl
  | case3 | case5 | case6 | case8 | case12 | case14 => cases hs
  | case4 elem _ len _ ih =>
    obtain ⟨e, he, hs⟩ := bind_eq_ok.1 hs
    cases hs
    rw [isHashable, ih he]
    split
    · exact Layout.allExact_fixedArray.symm
    · exact Layout.allExact_dynamicArray.symm
  | case7 value key _ _ =>
    obtain ⟨k, _, hs⟩ := bind_eq_ok.1 hs
    obtain ⟨v, _, hs⟩ := bind_eq_ok.1 hs
    cases hs
    rw [isHashable]
    exact iff_of_false Bool.false_ne_true Layout.not_allExact_map
  | case9 pointee _ _ _ scalar hkind =>
    cases hs
    rw [isHashable, isHashable_of_ofKind? hkind, Shape.layout, Layout.allExact_of_nodes rfl]
    cases scalar <;> rfl
  | case10 pointee _ _ _ _ ih =>
    rw [isHashable]
    exact ih hs
  | case13 kind elem key len name _ _ _ _ _ _ _ _ _ _ scalar hkind =>
    cases hs
    rw [isHashable_of_ofKind? hkind]
    exact (Layout.allExact_of_nodes rfl).symm

/-- A type passes when its key can be a key, and its key and element pass. -/
theorem checkType_eq_ok {location : String} {ty : Descriptor} :
    checkType location ty = .ok () ↔
      (∀ k, ty.key = some k → isHashable k = true ∧ checkType (location ++ ".key") k = .ok ()) ∧
      ∀ e, ty.elem = some e → checkType (location ++ ".elem") e = .ok () := by
  obtain ⟨kind, elem, key, len, name⟩ := ty
  rw [checkType.eq_def]
  cases key <;> cases elem <;>
    simp [pure, Except.pure, check_bind_eq_ok, stop_eq_ok, and_assoc]

/-- A sound type of a kind without keys passes when its element does, if it has one. -/
theorem checkType_of_noKey {location place : String} {ty : Descriptor}
    (hty : ty.check place = .ok ()) (hkind : ty.kind.needsKey = false) :
    checkType location ty = .ok () ↔
      ∀ e, ty.elem = some e → checkType (location ++ ".elem") e = .ok () := by
  obtain ⟨hflaw, -⟩ := Descriptor.check_eq_ok.1 hty
  obtain ⟨-, hkey, -⟩ := Descriptor.flaw?_eq_none_iff.1 hflaw
  rw [hkind, Option.isSome_eq_false_iff, Option.isNone_iff_eq_none] at hkey
  rw [checkType_eq_ok, hkey]
  exact and_iff_right nofun

/-- A sound type of a kind without elements and keys passes. -/
theorem checkType_of_noElem {location place : String} {ty : Descriptor}
    (hty : ty.check place = .ok ()) (hkind : ty.kind.needsKey = false)
    (helem : ty.kind.needsElem = false) : checkType location ty = .ok () := by
  obtain ⟨hflaw, -⟩ := Descriptor.check_eq_ok.1 hty
  obtain ⟨hnone, -⟩ := Descriptor.flaw?_eq_none_iff.1 hflaw
  rw [helem, Option.isSome_eq_false_iff, Option.isNone_iff_eq_none] at hnone
  rw [checkType_of_noKey hty hkind, hnone]
  exact nofun

/-- A sound type can be expressed when the keys of all maps in its layout have an exact equality. -/
theorem checkType_iff {ty : Descriptor} {location place : String}
    (hty : ty.check place = .ok ()) {s : Shape} (hs : ty.shape = .ok s) :
    checkType location ty = .ok () ↔ s.layout.KeysExact := by
  fun_induction Descriptor.shape ty generalizing s location place with
  | case1 | case11 =>
    cases hs
    refine iff_of_true (checkType_of_noElem hty rfl rfl) (Layout.keysExact_of_nodes rfl)
  | case2 =>
    cases hs
    refine iff_of_true (checkType_of_noElem hty rfl rfl) ?_
    split <;> exact Layout.keysExact_of_nodes rfl
  | case3 | case5 | case6 | case8 | case12 | case14 => cases hs
  | case4 elem _ len _ ih =>
    obtain ⟨e, he, hs⟩ := bind_eq_ok.1 hs
    cases hs
    have helem := (Descriptor.check_eq_ok.1 hty).2.2 elem rfl
    rw [checkType_of_noKey hty rfl]
    simp only [Option.some.injEq, forall_eq', ih helem he]
    split
    · exact Layout.keysExact_fixedArray.symm
    · exact Layout.keysExact_dynamicArray.symm
  | case7 value key _ _ ihk ihv =>
    obtain ⟨k, hk, hs⟩ := bind_eq_ok.1 hs
    obtain ⟨v, hv, hs⟩ := bind_eq_ok.1 hs
    cases hs
    have hkey := (Descriptor.check_eq_ok.1 hty).2.1 key rfl
    have hvalue := (Descriptor.check_eq_ok.1 hty).2.2 value rfl
    rw [checkType_eq_ok, Shape.layout, Layout.keysExact_map]
    simp only [Option.some.injEq, forall_eq', isHashable_iff hk, ihk hkey hk, ihv hvalue hv,
      and_assoc]
  | case9 pointee _ _ _ scalar hkind =>
    cases hs
    have hpointee := (Descriptor.check_eq_ok.1 hty).2.2 pointee rfl
    refine iff_of_true ?_ (Layout.keysExact_of_nodes rfl)
    rw [checkType_of_noKey hty rfl]
    rintro _ ⟨⟩
    have hscalar : pointee.kind.needsKey = false ∧ pointee.kind.needsElem = false := by
      generalize pointee.kind = kind at hkind
      cases kind <;> cases hkind <;> decide
    exact checkType_of_noElem hpointee hscalar.1 hscalar.2
  | case10 pointee _ _ _ _ ih =>
    have hpointee := (Descriptor.check_eq_ok.1 hty).2.2 pointee rfl
    rw [checkType_of_noKey hty rfl]
    simp only [Option.some.injEq, forall_eq', ih hpointee hs]
  | case13 kind elem key len name _ _ _ _ _ _ _ _ _ _ scalar hkind =>
    cases hs
    have hscalar : kind.needsKey = false ∧ kind.needsElem = false := by
      cases kind <;> cases hkind <;> decide
    exact iff_of_true (checkType_of_noElem hty hscalar.1 hscalar.2)
      (Layout.keysExact_of_nodes rfl)

/-- A sound type has a layout, and can be expressed when the keys of all maps in it have an exact
equality. -/
theorem layout_of_check {ty : Descriptor} {place : String} (hty : ty.check place = .ok ()) :
    ∃ l, ty.layout = .ok l ∧ ∀ location, checkType location ty = .ok () ↔ l.KeysExact := by
  obtain ⟨s, hs, -⟩ := Descriptor.shape_of_check hty
  refine ⟨s.layout, ?_, fun location => checkType_iff hty hs⟩
  rw [Descriptor.layout, hs]
  rfl

/-! ## Checks of structs -/

/-- The spelling of a field's name. -/
def spelled (f : Field) : String := fieldName f.name

/-- The spellings and names of fields, as they are kept for the fields behind them. -/
def takenBy (fields : List Field) : List (String × String) :=
  fields.map fun f => (spelled f, f.name)

/-- A struct can be expressed: its name is free, its fields have spellings of their own, and the
keys of all maps in their layouts have an exact equality. -/
structure Expressible (s : StructDef) : Prop where
  name : s.name ∉ ownTypes
  spellings : (s.fields.map spelled).Nodup
  keys : ∀ f ∈ s.fields, ∃ l, f.type.layout = .ok l ∧ l.KeysExact

/-- Why a struct cannot be expressed, as the check reports it. -/
inductive Hinders (s : StructDef) : Unsupported → Prop
  | takenType : s.name ∈ ownTypes → Hinders s ⟨s.name, .takenType⟩
  | takenField {before after : List Field} {f g : Field} :
      s.fields = before ++ f :: after → g ∈ before → spelled g = spelled f →
      Hinders s ⟨s.name ++ "." ++ f.name, .takenField (spelled f) g.name⟩
  | keyNotHashable {f : Field} {l : Layout} (inside : String) :
      f ∈ s.fields → f.type.layout = .ok l → ¬ l.KeysExact →
      Hinders s ⟨s.name ++ "." ++ f.name ++ inside, .keyNotHashable⟩

theorem Hinders.not_expressible {s : StructDef} {u : Unsupported} (h : Hinders s u) :
    ¬ Expressible s := by
  intro hs
  cases h with
  | takenType hname => exact hs.name hname
  | takenField hfields hg hsame =>
    have hspellings := hs.spellings
    rw [hfields, List.map_append, List.map_cons, List.nodup_append] at hspellings
    exact hspellings.2.2 _ (List.mem_map_of_mem hg) _ (List.mem_cons_self ..) hsame
  | keyNotHashable inside hf hl hkeys =>
    obtain ⟨l, hl', hexact⟩ := hs.keys _ hf
    cases hl.symm.trans hl'
    exact hkeys hexact

/-- A type fails where its key cannot be a key, or where its key or its element fails. -/
theorem checkType_eq_error {location : String} {ty : Descriptor} {u : Unsupported}
    (h : checkType location ty = .error u) :
    u = ⟨location, .keyNotHashable⟩ ∨
      (∃ k, ty.key = some k ∧ checkType (location ++ ".key") k = .error u) ∨
      ∃ e, ty.elem = some e ∧ checkType (location ++ ".elem") e = .error u := by
  obtain ⟨kind, elem, key, len, name⟩ := ty
  rw [checkType.eq_def] at h
  cases key with
  | none =>
    cases elem with
    | none => cases h
    | some e => exact .inr (.inr ⟨e, rfl, h⟩)
  | some k =>
    dsimp only at h
    split at h
    · cases h
      exact .inl rfl
    · rcases check_bind_eq_error.1 h with hkey | ⟨-, helem⟩
      · exact .inr (.inl ⟨k, rfl, hkey⟩)
      · cases elem with
        | none => cases helem
        | some e => exact .inr (.inr ⟨e, rfl, helem⟩)

/-- The check of a type fails at a place inside the type, because of the keys there. -/
theorem location_of_checkType {location : String} {ty : Descriptor} {u : Unsupported}
    (h : checkType location ty = .error u) :
    ∃ inside, u = ⟨location ++ inside, .keyNotHashable⟩ := by
  induction ty using Descriptor.partsInduction generalizing location with
  | step ty ihe ihk =>
    rcases checkType_eq_error h with rfl | ⟨k, hk, hkey⟩ | ⟨e, he, helem⟩
    · exact ⟨"", by rw [String.append_empty]⟩
    · obtain ⟨inside, rfl⟩ := ihk k hk hkey
      exact ⟨".key" ++ inside, by rw [String.append_assoc]⟩
    · obtain ⟨inside, rfl⟩ := ihe e he helem
      exact ⟨".elem" ++ inside, by rw [String.append_assoc]⟩

/-- No taken spelling is that of a field when no field before has it. -/
theorem find?_takenBy_eq_none {before : List Field} {f : Field} :
    (takenBy before).find? (·.1 == fieldName f.name) = none ↔
      ∀ g ∈ before, spelled g ≠ spelled f := by
  simp [takenBy, spelled]

/-- Fields that pass have spellings that no field before them has, and types that pass. -/
theorem spellings_of_checkFields {owner : String} {before fields : List Field}
    (h : checkFields owner (takenBy before) fields = .ok ()) :
    (∀ f ∈ fields, ∀ g ∈ before, spelled g ≠ spelled f) ∧ (fields.map spelled).Nodup ∧
      ∀ f ∈ fields, checkType (owner ++ "." ++ f.name) f.type = .ok () := by
  induction fields generalizing before with
  | nil => exact ⟨nofun, List.nodup_nil, nofun⟩
  | cons f fields ih =>
    rw [checkFields] at h
    cases hfind : (takenBy before).find? (·.1 == fieldName f.name) with
    | some other =>
      rw [hfind] at h
      cases h
    | none =>
      rw [hfind] at h
      obtain ⟨htype, hrest⟩ := check_bind_eq_ok.1 h
      have htaken : takenBy before ++ [(fieldName f.name, f.name)] = takenBy (before ++ [f]) := by
        simp [takenBy, spelled]
      rw [htaken] at hrest
      obtain ⟨hnew, hdiffer, htypes⟩ := ih hrest
      simp only [List.forall_mem_append, List.forall_mem_singleton] at hnew
      refine ⟨?_, ?_, List.forall_mem_cons.2 ⟨htype, htypes⟩⟩
      · refine List.forall_mem_cons.2 ⟨find?_takenBy_eq_none.1 hfind, fun g hg => (hnew g hg).1⟩
      · refine List.nodup_cons.2 ⟨fun hmem => ?_, hdiffer⟩
        obtain ⟨g, hg, hsame⟩ := List.mem_map.1 hmem
        exact (hnew g hg).2 hsame.symm

/-- Where the check of a sound struct's fields fails, its first reason hinders the struct. -/
theorem hinders_of_checkFields {package : String} {s : StructDef} (hs : s.check package = .ok ())
    {before fields : List Field} (hfields : s.fields = before ++ fields) {u : Unsupported}
    (h : checkFields s.name (takenBy before) fields = .error u) : Hinders s u := by
  induction fields generalizing before with
  | nil => cases h
  | cons f fields ih =>
    rw [checkFields] at h
    cases hfind : (takenBy before).find? (·.1 == fieldName f.name) with
    | some other =>
      rw [hfind] at h
      cases h
      have hsame := List.find?_some hfind
      obtain ⟨g, hg, rfl⟩ := List.mem_map.1 (List.mem_of_find?_eq_some hfind)
      exact .takenField hfields hg (eq_of_beq hsame)
    | none =>
      rw [hfind] at h
      rcases check_bind_eq_error.1 h with htype | ⟨-, hrest⟩
      · have hf : f ∈ s.fields := by
          rw [hfields]
          exact List.mem_append_right _ (List.mem_cons_self ..)
        obtain ⟨l, hl, hkeys⟩ := layout_of_check (StructDef.check_of_check hs f hf)
        obtain ⟨inside, rfl⟩ := location_of_checkType htype
        refine .keyNotHashable inside hf hl fun hexact => ?_
        cases htype.symm.trans ((hkeys _).2 hexact)
      · refine ih (hfields.trans (List.append_cons before f fields)) ?_
        rw [takenBy, List.map_append]
        exact hrest

/-- A sound struct passes when it can be expressed, and otherwise the check tells what hinders. -/
theorem checkStruct_iff {package : String} {s : StructDef} (hs : s.check package = .ok ()) :
    (checkStruct s = .ok () ↔ Expressible s) ∧
      ∀ u, checkStruct s = .error u → Hinders s u := by
  have hfail : ∀ u, checkStruct s = .error u → Hinders s u := by
    intro u hu
    rw [checkStruct] at hu
    split at hu
    next hown =>
      cases hu
      exact .takenType (List.contains_iff_mem.1 hown)
    next => exact hinders_of_checkFields hs (List.nil_append _).symm hu
  refine ⟨⟨fun h => ?_, fun h => ?_⟩, hfail⟩
  · rw [checkStruct, stop_eq_ok, List.contains_iff_mem] at h
    have hfields : checkFields s.name (takenBy []) s.fields = .ok () := h.2
    obtain ⟨-, hdiffer, htypes⟩ := spellings_of_checkFields hfields
    refine ⟨h.1, hdiffer, fun f hf => ?_⟩
    obtain ⟨l, hl, hkeys⟩ := layout_of_check (StructDef.check_of_check hs f hf)
    exact ⟨l, hl, (hkeys _).1 (htypes f hf)⟩
  · cases hu : checkStruct s with
    | ok => rfl
    | error u => exact absurd h (hfail u hu).not_expressible

end Native

/-! ## Documents -/

open Native

namespace Document

/-- A document that the language can express and that has programs has code, by these programs. -/
theorem generate_of_check {doc : Document} {target : Target} {p : DocumentProgram}
    (hcheck : target.check doc = .ok ()) (hp : doc.program = .ok p) :
    doc.generate target =
      .ok (Code.render target.indent (target.source doc doc.ownCatalog p)) := by
  rw [generate, hcheck, hp]
  rfl

/-- A checked document whose maps are narrow has Rust code just when all its structs can be
expressed. If not all can be, a checked document is refused for the first struct, in order of
declaration, that cannot, with what hinders that one. If all can be but a map is not narrow, the
lowering breaks off. -/
theorem generate_native_iff_expressible {doc : Document} (h : doc.check = .ok ())
    (path : Option String) :
    ∃ d, doc.layout = .ok d ∧
      (d.NarrowMaps → ((∃ text, doc.generate (.native path) = .ok text) ↔
        ∀ s ∈ doc.messageStructs, Expressible s)) ∧
      ((¬ ∀ s ∈ doc.messageStructs, Expressible s) → ∃ before s after u,
        doc.messageStructs = before ++ s :: after ∧ (∀ t ∈ before, Expressible t) ∧
        ¬ Expressible s ∧ Hinders s u ∧ doc.generate (.native path) = .error (.unsupported u)) ∧
      (¬ d.NarrowMaps → (∀ s ∈ doc.messageStructs, Expressible s) →
        doc.generate (.native path) = .error (.lowering .overflow)) := by
  have hcheck := check_of_check h
  obtain ⟨shapes, hshapes, _⟩ := shapes_of_check h
  refine ⟨_, layout_of_shaped hshapes, ?_⟩
  cases hstructs : doc.messageStructs.forM checkStruct with
  | ok =>
    have hall : ∀ s ∈ doc.messageStructs, Expressible s := fun s hs =>
      (checkStruct_iff (hcheck s hs)).1.1 (forM_eq_ok.1 hstructs s hs)
    have hcheck : (Target.native path).check doc = .ok () := by
      rw [Target.check, hstructs]
      rfl
    refine ⟨fun hmaps => ?_, fun hnot => absurd hall hnot, fun hwide _ => ?_⟩
    · exact iff_of_true ⟨_, generate_of_check hcheck (program_of_shaped hshapes hmaps)⟩ hall
    · rw [generate, hcheck, overflow_of_shaped hshapes hwide]
      rfl
  | error u =>
    have hfails : doc.generate (.native path) = .error (.unsupported u) := by
      rw [generate, Target.check, hstructs]
      rfl
    obtain ⟨before, s, after, hsplit, hbefore, hs⟩ := forM_eq_error hstructs
    have hmem : ∀ t ∈ before ++ [s], t ∈ doc.messageStructs := by
      rw [hsplit]
      exact fun t ht => by simpa [or_assoc] using List.mem_append_left after ht
    have hhinders := (checkStruct_iff (hcheck s (hmem s (by simp)))).2 u hs
    have hnot : ¬ ∀ s ∈ doc.messageStructs, Expressible s := fun hall =>
      hhinders.not_expressible (hall s (hmem s (by simp)))
    refine ⟨fun _ => iff_of_false ?_ hnot, fun _ => ⟨before, s, after, u, hsplit, fun t ht => ?_,
      hhinders.not_expressible, hhinders, hfails⟩, fun _ hall => absurd hall hnot⟩
    · rintro ⟨text, htext⟩
      cases htext.symm.trans hfails
    · have hcheck := hcheck t (hmem t (List.mem_append_left _ ht))
      exact (checkStruct_iff hcheck).1.1 (hbefore t ht)

end Document

/-- A document of one struct with a map. -/
def keyedDocument (key : Kind) : Document :=
  ⟨"p", [⟨"S", none, [⟨"M", ⟨.map, some (.ofKind .int32), some (.ofKind key), 0, none⟩⟩]⟩]⟩

/-- Whole numbers can be keys in Rust code, floats cannot. -/
theorem whole_numbers_key_native_maps :
    (∃ text, (keyedDocument .uint16).generate (.native none) = .ok text) ∧
    ∃ s u, Hinders s u ∧
      (keyedDocument .float32).generate (.native none) = .error (.unsupported u) := by
  constructor
  · have hcheck : (keyedDocument .uint16).check = .ok () := rfl
    obtain ⟨d, hd, hiff, -⟩ := Document.generate_native_iff_expressible hcheck none
    have hmaps : d.NarrowMaps := by
      cases hd
      exact narrowMaps_mapLayout
    rw [hiff hmaps]
    rintro s hs
    cases List.mem_singleton.1 hs
    refine ⟨by decide, by simp, fun f hf => ?_⟩
    cases List.mem_singleton.1 hf
    refine ⟨.map (.fixed .u16) (.fixed .i32), rfl, Layout.keysExact_map.2 ⟨?_, ?_, ?_⟩⟩
    · exact (Layout.allExact_of_nodes rfl).2 rfl
    · exact Layout.keysExact_of_nodes rfl
    · exact Layout.keysExact_of_nodes rfl
  · have hfloat : ¬ ∀ s ∈ (keyedDocument .float32).messageStructs, Expressible s := by
      intro hall
      have hs := hall _ (List.mem_singleton_self _)
      obtain ⟨l, hl, hexact⟩ := hs.keys _ (List.mem_singleton_self _)
      cases hl
      cases (Layout.allExact_of_nodes rfl).1 (Layout.keysExact_map.1 hexact).1
    have hcheck : (keyedDocument .float32).check = .ok () := rfl
    obtain ⟨_, -, -, hrefused, -⟩ := Document.generate_native_iff_expressible hcheck none
    obtain ⟨_, s, _, u, -, -, -, hu, hfails⟩ := hrefused hfloat
    exact ⟨s, u, hu, hfails⟩

end WireSchema
