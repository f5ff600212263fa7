-- Measuring that does not break off. The size program of a shape is there where the two widths of
-- every map fit a word together, and lowering breaks off at the first map where they do not. The
-- steps are those of lowering that adds without a check and cannot fail.
import WireSchema.Program.Lower
import WireSchema.Proofs.Outcome

namespace WireSchema

open Outcome

/-- The count in front of a container, as a step of a size program. -/
def Op.addCount : Op := .addSize (.const (.ofNat countWidth))

/-! ## Sums that fit -/

namespace Layout

/-- In every map whose keys and values both have a static width, the two widths together fit a
word. -/
def NarrowMaps : Layout → Prop
  | .fixedArray _ elem | .dynamicArray elem => elem.NarrowMaps
  | .map key value => key.NarrowMaps ∧ value.NarrowMaps ∧
    ∀ k v, key.staticWidth = some k → value.staticWidth = some v → k.toNat + v.toNat < UInt64.size
  | _ => True

variable {l key value : Layout}

/-- A layout of static width holds no map. -/
theorem narrowMaps_of_staticWidth {w : UInt64} (h : l.staticWidth = some w) : l.NarrowMaps := by
  induction l generalizing w with
  | fixedArray len elem ih =>
    obtain ⟨width, hwidth, _⟩ := Option.bind_eq_some_iff.1 h
    exact ih hwidth
  | fixed | fixedBytes => trivial
  | _ => cases h

/-- Of a map both widths are static, or one is not. -/
theorem staticWidth_cases (key value : Layout) :
    (∃ k v, key.staticWidth = some k ∧ value.staticWidth = some v) ∨
      key.staticWidth = none ∨ value.staticWidth = none := by
  cases key.staticWidth <;> cases value.staticWidth <;> simp

theorem narrowMaps_map_of_static {k v : UInt64} (hk : key.staticWidth = some k)
    (hv : value.staticWidth = some v) :
    (map key value).NarrowMaps ↔ k.toNat + v.toNat < UInt64.size := by
  constructor
  · exact fun h => h.2.2 k v hk hv
  · refine fun hsum => ⟨narrowMaps_of_staticWidth hk, narrowMaps_of_staticWidth hv, ?_⟩
    rintro k' v' hk' hv'
    cases hk.symm.trans hk'
    cases hv.symm.trans hv'
    exact hsum

theorem narrowMaps_map_of_none (h : key.staticWidth = none ∨ value.staticWidth = none) :
    (map key value).NarrowMaps ↔ key.NarrowMaps ∧ value.NarrowMaps := by
  refine ⟨fun hmaps => ⟨hmaps.1, hmaps.2.1⟩, fun hmaps => ⟨hmaps.1, hmaps.2, fun k v hk hv => ?_⟩⟩
  rcases h with h | h
  · cases hk.symm.trans h
  · cases hv.symm.trans h

end Layout

theorem addWidths_of_lt {ε : Type} {e : ε} {a b : UInt64} (h : a.toNat + b.toNat < UInt64.size) :
    addWidths e a b = .ok (a + b) := by
  have hsum : Width.checkedAdd a b = some (a + b) := by
    rw [Width.checkedAdd, Width.ofNat?_eq_some_iff, UInt64.toNat_add, Nat.mod_eq_of_lt h]
  rw [addWidths, hsum]

theorem addWidths_of_not_lt {ε : Type} {e : ε} {a b : UInt64}
    (h : ¬ a.toNat + b.toNat < UInt64.size) : addWidths e a b = .error e := by
  rw [addWidths, Width.checkedAdd, Width.ofNat?, if_neg h]

/-! ## The steps of each shape -/

namespace Shape

section Steps

variable {m : Type → Type} [Monad m] {add : UInt64 → UInt64 → m UInt64}
  {elem key value : Shape} {place : Place}

theorem sizeOpsM_whole {len : UInt32} {type : Descriptor} {w : UInt64}
    (h : (fixedArray len type elem).layout.staticWidth = some w) :
    (fixedArray len type elem).sizeOpsM add place = pure [.addSize (.const w)] := by
  have hwidth : elem.staticWidth.bind (Width.checkedMul · len.toUInt64) = some w := h
  simp only [sizeOpsM, hwidth]

theorem sizeOpsM_counted {type : Descriptor} {w : UInt64} (h : elem.layout.staticWidth = some w) :
    (dynamicArray type elem).sizeOpsM add place =
      pure [.addCount, .addSize (.countTimes place w)] := by
  simp only [sizeOpsM, staticWidth, h]
  rfl

variable [LawfulMonad m]

theorem run_sizeOpsM_fixedItems {len : UInt32} {type : Descriptor}
    (h : (fixedArray len type elem).layout.staticWidth = none) (n : Nat) :
    ((fixedArray len type elem).sizeOpsM add place).run n = (do
      let (body, next) ← (elem.sizeOpsM add (.temp ("item" ++ toString n))).run (n + 1)
      return ([.forEach place ("item" ++ toString n) body], next)) := by
  have hwidth : elem.staticWidth.bind (Width.checkedMul · len.toUInt64) = none := h
  simp [sizeOpsM, hwidth, Lowering.fresh]

theorem run_sizeOpsM_items {type : Descriptor} (h : elem.layout.staticWidth = none) (n : Nat) :
    ((dynamicArray type elem).sizeOpsM add place).run n = (do
      let (body, next) ← (elem.sizeOpsM add (.temp ("item" ++ toString n))).run (n + 1)
      return ([.addCount, .forEach place ("item" ++ toString n) body], next)) := by
  simp [sizeOpsM, staticWidth, h, Lowering.fresh, Op.addCount]

theorem run_sizeOpsM_countedEntries {keyType valueType : Descriptor} {k v : UInt64}
    (hk : key.layout.staticWidth = some k) (hv : value.layout.staticWidth = some v) (n : Nat) :
    ((map keyType valueType key value).sizeOpsM add place).run n = (do
      let width ← add k v
      return ([.addCount, .addSize (.countTimes place width)], n)) := by
  simp [sizeOpsM, staticWidth, hk, hv, Op.addCount]

theorem run_sizeOpsM_entries {keyType valueType : Descriptor}
    (h : key.layout.staticWidth = none ∨ value.layout.staticWidth = none) (n : Nat) :
    ((map keyType valueType key value).sizeOpsM add place).run n = (do
      let (keyOps, next) ← (key.sizeOpsM add (.temp ("key" ++ toString n))).run (n + 2)
      let (valueOps, next) ← (value.sizeOpsM add (.temp ("val" ++ toString (n + 1)))).run next
      return ([.addCount, .forEachEntry place ("key" ++ toString n) ("val" ++ toString (n + 1))
        (keyOps ++ valueOps)], next)) := by
  rcases h with h | h
  · simp [sizeOpsM, staticWidth, h, Lowering.fresh, Op.addCount]
  · simp only [sizeOpsM, staticWidth, h]
    cases key.layout.staticWidth <;> simp [Lowering.fresh, Op.addCount]

end Steps

/-- The steps that add the size of the value at a place, whatever word the sum of two widths is. -/
def sizeSteps : Shape → Place → Lowering (List Op) := sizeOpsM (m := Id) fun k v => k + v

/-- Measuring gives the steps of a shape whose maps are narrow, and breaks off at any other. -/
theorem run_sizeOpsM {ε : Type} (e : ε) (s : Shape) (place : Place) (n : Nat) :
    s.layout.NarrowMaps ∧
        (s.sizeOpsM (addWidths e) place).run n = .ok ((s.sizeSteps place).run n) ∨
      ¬ s.layout.NarrowMaps ∧ (s.sizeOpsM (addWidths e) place).run n = .error e := by
  unfold sizeSteps
  induction s generalizing place n with
  | fixedArray len type elem ih =>
    cases hwidth : (fixedArray len type elem).layout.staticWidth with
    | some w =>
      rw [sizeOpsM_whole hwidth, sizeOpsM_whole hwidth]
      exact Or.inl ⟨Layout.narrowMaps_of_staticWidth hwidth, rfl⟩
    | none =>
      rw [run_sizeOpsM_fixedItems hwidth, run_sizeOpsM_fixedItems hwidth]
      rcases ih (.temp ("item" ++ toString n)) (n + 1) with ⟨hmaps, hrun⟩ | ⟨hmaps, hrun⟩
      · exact Or.inl ⟨hmaps, by rw [hrun]; rfl⟩
      · exact Or.inr ⟨hmaps, by rw [hrun]; rfl⟩
  | dynamicArray type elem ih =>
    cases hwidth : elem.layout.staticWidth with
    | some w =>
      have helem : elem.layout.NarrowMaps := Layout.narrowMaps_of_staticWidth hwidth
      rw [sizeOpsM_counted hwidth, sizeOpsM_counted hwidth]
      exact Or.inl ⟨helem, rfl⟩
    | none =>
      rw [run_sizeOpsM_items hwidth, run_sizeOpsM_items hwidth]
      rcases ih (.temp ("item" ++ toString n)) (n + 1) with ⟨hmaps, hrun⟩ | ⟨hmaps, hrun⟩
      · exact Or.inl ⟨hmaps, by rw [hrun]; rfl⟩
      · exact Or.inr ⟨hmaps, by rw [hrun]; rfl⟩
  | map keyType valueType key value ihk ihv =>
    rcases Layout.staticWidth_cases key.layout value.layout with ⟨k, v, hk, hv⟩ | hnone
    · rw [run_sizeOpsM_countedEntries hk hv, run_sizeOpsM_countedEntries hk hv, layout,
        Layout.narrowMaps_map_of_static hk hv]
      by_cases hsum : k.toNat + v.toNat < UInt64.size
      · exact Or.inl ⟨hsum, by rw [addWidths_of_lt hsum]; rfl⟩
      · exact Or.inr ⟨hsum, by rw [addWidths_of_not_lt hsum]; rfl⟩
    · rw [run_sizeOpsM_entries hnone, run_sizeOpsM_entries hnone, layout,
        Layout.narrowMaps_map_of_none hnone]
      have hkey := ihk (.temp ("key" ++ toString n)) (n + 2)
      generalize (sizeOpsM (m := Id) (fun k v => k + v) key (.temp ("key" ++ toString n))).run
        (n + 2) = made at hkey ⊢
      obtain ⟨keyOps, next⟩ := made
      have hvalue := ihv (.temp ("val" ++ toString (n + 1))) next
      rcases hkey with ⟨hkey, hk⟩ | ⟨hkey, hk⟩
      · rcases hvalue with ⟨hvalue, hv⟩ | ⟨hvalue, hv⟩
        · exact Or.inl ⟨⟨hkey, hvalue⟩, by simp only [hk, ok_bind, hv]; rfl⟩
        · exact Or.inr ⟨fun h => hvalue h.2, by simp only [hk, ok_bind, hv]; rfl⟩
      · exact Or.inr ⟨fun h => hkey h.1, by rw [hk]; rfl⟩
  | _ => exact Or.inl ⟨trivial, rfl⟩

theorem run_sizeOpsM_of_narrow {ε : Type} (e : ε) {s : Shape} (h : s.layout.NarrowMaps)
    (place : Place) (n : Nat) :
    (s.sizeOpsM (addWidths e) place).run n = .ok ((s.sizeSteps place).run n) := by
  rcases s.run_sizeOpsM e place n with ⟨_, hrun⟩ | ⟨hwide, _⟩
  · exact hrun
  · exact absurd h hwide

theorem run_sizeOpsM_of_wide {ε : Type} (e : ε) {s : Shape} (h : ¬ s.layout.NarrowMaps)
    (place : Place) (n : Nat) : (s.sizeOpsM (addWidths e) place).run n = .error e := by
  rcases s.run_sizeOpsM e place n with ⟨hmaps, _⟩ | ⟨_, hrun⟩
  · exact absurd hmaps h
  · exact hrun

variable {elem key value : Shape} {place : Place}

theorem run_sizeSteps_whole {len : UInt32} {type : Descriptor} {w : UInt64}
    (h : (fixedArray len type elem).layout.staticWidth = some w) (n : Nat) :
    ((fixedArray len type elem).sizeSteps place).run n = ([.addSize (.const w)], n) := by
  rw [sizeSteps, sizeOpsM_whole h]
  rfl

theorem run_sizeSteps_fixedItems {len : UInt32} {type : Descriptor}
    (h : (fixedArray len type elem).layout.staticWidth = none) (n : Nat) :
    let item := "item" ++ toString n
    let body := (elem.sizeSteps (.temp item)).run (n + 1)
    ((fixedArray len type elem).sizeSteps place).run n =
      ([.forEach place item body.1], body.2) := by
  rw [sizeSteps, run_sizeOpsM_fixedItems h]
  rfl

theorem run_sizeSteps_counted {type : Descriptor} {w : UInt64}
    (h : elem.layout.staticWidth = some w) (n : Nat) :
    ((dynamicArray type elem).sizeSteps place).run n =
      ([.addCount, .addSize (.countTimes place w)], n) := by
  rw [sizeSteps, sizeOpsM_counted h]
  rfl

theorem run_sizeSteps_items {type : Descriptor} (h : elem.layout.staticWidth = none) (n : Nat) :
    let item := "item" ++ toString n
    let body := (elem.sizeSteps (.temp item)).run (n + 1)
    ((dynamicArray type elem).sizeSteps place).run n =
      ([.addCount, .forEach place item body.1], body.2) := by
  rw [sizeSteps, run_sizeOpsM_items h]
  rfl

theorem run_sizeSteps_countedEntries {keyType valueType : Descriptor} {k v : UInt64}
    (hk : key.layout.staticWidth = some k) (hv : value.layout.staticWidth = some v) (n : Nat) :
    ((map keyType valueType key value).sizeSteps place).run n =
      ([.addCount, .addSize (.countTimes place (k + v))], n) := by
  rw [sizeSteps, run_sizeOpsM_countedEntries hk hv]
  rfl

theorem run_sizeSteps_entries {keyType valueType : Descriptor}
    (h : key.layout.staticWidth = none ∨ value.layout.staticWidth = none) (n : Nat) :
    let k := "key" ++ toString n
    let v := "val" ++ toString (n + 1)
    let keyOps := (key.sizeSteps (.temp k)).run (n + 2)
    let valueOps := (value.sizeSteps (.temp v)).run keyOps.2
    ((map keyType valueType key value).sizeSteps place).run n =
      ([.addCount, .forEachEntry place k v (keyOps.1 ++ valueOps.1)], valueOps.2) := by
  rw [sizeSteps, run_sizeOpsM_entries h]
  rfl

end Shape

/-! ## Fields -/

/-- The field has a layout whose maps are narrow. -/
def Field.Lowerable (f : Field) : Prop := ∃ l, f.type.layout = .ok l ∧ l.NarrowMaps

/-- The field of the struct `owner` ends the lowering, and how it does. -/
inductive Field.Stops (owner : String) (f : Field) : LoweringError → Prop
  | noLayout {cause : LayoutError} :
      f.type.layout = .error cause → f.Stops owner (.field owner f.name cause)
  | wideMap {l : Layout} : f.type.layout = .ok l → ¬ l.NarrowMaps → f.Stops owner .overflow

namespace Field

variable {owner : String} {f : Field}

theorem stops_of_not_lowerable (owner : String) (h : ¬ f.Lowerable) : ∃ e, f.Stops owner e := by
  cases hlayout : f.type.layout with
  | error cause => exact ⟨_, .noLayout hlayout⟩
  | ok l => exact ⟨_, .wideMap hlayout fun hmaps => h ⟨l, hlayout, hmaps⟩⟩

theorem layout_of_shape {s : Shape} (h : f.type.shape = .ok s) : f.type.layout = .ok s.layout := by
  rw [Descriptor.layout, h]
  rfl

/-- A field that has a shape is measured by it. -/
theorem measured_of_shape {s : Shape} (h : f.type.shape = .ok s) :
    f.measured owner = (fun ops => (⟨f.name, s⟩, ops)) <$> s.sizeOps (.field f.name) := by
  simp only [measured, Field.shape, h]
  rfl

theorem run_measured {s : Shape} (hshape : f.type.shape = .ok s) (hmaps : s.layout.NarrowMaps)
    (n : Nat) :
    (f.measured owner).run n = .ok ((⟨f.name, s⟩, ((s.sizeSteps (.field f.name)).run n).1),
      ((s.sizeSteps (.field f.name)).run n).2) := by
  rw [measured_of_shape hshape, StateT.run_map, Shape.sizeOps, Shape.run_sizeOpsM_of_narrow _ hmaps]
  rfl

theorem Stops.run_measured {e : LoweringError} (h : f.Stops owner e) (n : Nat) :
    (f.measured owner).run n = .error e := by
  cases h with
  | noLayout hlayout =>
    cases hshape : f.type.shape with
    | error cause =>
      rw [Descriptor.layout, hshape] at hlayout
      cases hlayout
      simp only [measured, Field.shape, hshape]
      rfl
    | ok s => cases (layout_of_shape hshape).symm.trans hlayout
  | wideMap hlayout hwide =>
    obtain ⟨s, hshape, rfl⟩ := map_eq_ok.1 hlayout
    rw [measured_of_shape hshape, StateT.run_map, Shape.sizeOps, Shape.run_sizeOpsM_of_wide _ hwide]
    rfl

end Field

/-! ## Layouts with narrow maps -/

/-- The static widths of every map of a struct together fit a word. -/
def StructLayout.NarrowMaps (s : StructLayout) : Prop := ∀ f ∈ s.fields, f.layout.NarrowMaps

/-- The static widths of every map of a document together fit a word. -/
def DocumentLayout.NarrowMaps (d : DocumentLayout) : Prop :=
  ∀ s ∈ d.structs, ∀ f ∈ s.fields, f.layout.NarrowMaps

end WireSchema
