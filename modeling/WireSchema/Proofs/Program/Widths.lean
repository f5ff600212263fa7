-- The numbers in size programs. A width is added at once where a word has it, and what no word has
-- is measured part by part. The checked product keeps to this at every depth of a layout. The sum
-- of a map's two widths does not: lowering breaks off where no word has it, and nowhere else.
import WireSchema.Proofs.Program.Encoder
import WireSchema.Proofs.Wire.Order

namespace WireSchema

/-! ## Exact widths -/

namespace Width

/-- No word has the width: it hangs on the value, or it is too large. -/
def NoWord (width : Option Nat) : Prop := ∀ n, width = some n → UInt64.size ≤ n

theorem ofNat?_eq_none_iff {n : Nat} : ofNat? n = none ↔ UInt64.size ≤ n := by
  unfold ofNat?
  split
  · simp only [reduceCtorEq, false_iff]
    omega
  · simp only [true_iff]
    omega

end Width

open Width

namespace Layout

/-- The number of bytes of every value of the layout, when it does not hang on the value. The
number is as large as it is. -/
def exactWidth : Layout → Option Nat
  | fixed scalar => some scalar.width
  | fixedBytes len => some len.toNat
  | fixedArray len elem => elem.exactWidth.map (len.toNat * ·)
  | _ => none

/-- The number of bytes of every entry of a map. -/
def entryWidth (key value : Layout) : Option Nat := do
  return (← key.exactWidth) + (← value.exactWidth)

variable {l key value : Layout}

theorem exactWidth_of_staticWidth {w : UInt64} (h : l.staticWidth = some w) :
    l.exactWidth = some w.toNat := by
  induction l generalizing w with
  | fixed scalar =>
    cases h
    cases scalar <;> rfl
  | fixedBytes len =>
    cases h
    rw [exactWidth, UInt32.toNat_toUInt64]
  | fixedArray len elem ih =>
    obtain ⟨width, hwidth, hmul⟩ := Option.bind_eq_some_iff.1 h
    rw [exactWidth, ih hwidth, ofNat?_eq_some_iff.1 hmul, UInt32.toNat_toUInt64, Nat.mul_comm]
    rfl
  | _ => cases h

/-- A layout has no static width where no word has its exact width. -/
theorem noWord_of_staticWidth (hl : l.Solid) (h : l.staticWidth = none) : NoWord l.exactWidth := by
  induction l with
  | fixedArray len elem ih =>
    intro n hn
    obtain ⟨m, hm, rfl⟩ := Option.map_eq_some_iff.1 hn
    cases hwidth : elem.staticWidth with
    | none =>
      -- The elements are too wide already, and there is at least one.
      have hlen : 0 < len.toNat := by
        rw [Nat.pos_iff_ne_zero]
        exact fun hzero => hl.1 (UInt32.toNat_inj.1 hzero)
      calc UInt64.size ≤ m := ih hl.2 hwidth m hm
        _ ≤ len.toNat * m := Nat.le_mul_of_pos_left m hlen
    | some w =>
      rw [exactWidth_of_staticWidth hwidth] at hm
      cases hm
      rw [staticWidth, hwidth] at h
      have hlarge := ofNat?_eq_none_iff.1 h
      rwa [UInt32.toNat_toUInt64, Nat.mul_comm] at hlarge
  | fixed | fixedBytes => cases h
  | _ => exact nofun

theorem entryWidth_of_staticWidth {k v : UInt64} (hk : key.staticWidth = some k)
    (hv : value.staticWidth = some v) : entryWidth key value = some (k.toNat + v.toNat) := by
  rw [entryWidth, exactWidth_of_staticWidth hk, exactWidth_of_staticWidth hv]
  rfl

theorem noWord_entryWidth (hkey : key.Solid) (hvalue : value.Solid)
    (h : key.staticWidth = none ∨ value.staticWidth = none) : NoWord (entryWidth key value) := by
  intro n hn
  obtain ⟨k, hk, hn⟩ := Option.bind_eq_some_iff.1 hn
  obtain ⟨v, hv, hn⟩ := Option.bind_eq_some_iff.1 hn
  cases hn
  rcases h with h | h
  · have := noWord_of_staticWidth hkey h k hk
    omega
  · have := noWord_of_staticWidth hvalue h v hv
    omega

end Layout

/-! ## Programs that are exact -/

/-- Steps measure the values of a layout at a place exactly. A width that a word has is added at
once, for all elements or entries of a container together; where no word has the width, the parts
are measured one by one. -/
inductive Sizes : Layout → Place → List Op → Prop
  | whole {l : Layout} {place : Place} {w : UInt64} :
      l.exactWidth = some w.toNat → Sizes l place [.addSize (.const w)]
  | nullable {scalar : Scalar} {place : Place} {w : UInt64} :
      w.toNat = scalar.width →
      Sizes (.nullable scalar) place
        [.addSize (.const (.ofNat flagWidth)), .addSize (.optional place w)]
  | string {place : Place} : Sizes .string place [.addCount, .addSize (.utf8Len place)]
  | dynamicBytes {place : Place} : Sizes .dynamicBytes place [.addCount, .addSize (.byteLen place)]
  | fixedItems {len : UInt32} {elem : Layout} {place : Place} {item : String} {body : List Op} :
      NoWord (Layout.fixedArray len elem).exactWidth → Sizes elem (.temp item) body →
      Sizes (.fixedArray len elem) place [.forEach place item body]
  | counted {elem : Layout} {place : Place} {w : UInt64} :
      elem.exactWidth = some w.toNat →
      Sizes (.dynamicArray elem) place [.addCount, .addSize (.countTimes place w)]
  | items {elem : Layout} {place : Place} {item : String} {body : List Op} :
      NoWord elem.exactWidth → Sizes elem (.temp item) body →
      Sizes (.dynamicArray elem) place [.addCount, .forEach place item body]
  | countedEntries {key value : Layout} {place : Place} {w : UInt64} :
      Layout.entryWidth key value = some w.toNat →
      Sizes (.map key value) place [.addCount, .addSize (.countTimes place w)]
  | entries {key value : Layout} {place : Place} {k v : String} {keyOps valueOps : List Op} :
      NoWord (Layout.entryWidth key value) → Sizes key (.temp k) keyOps →
      Sizes value (.temp v) valueOps →
      Sizes (.map key value) place [.addCount, .forEachEntry place k v (keyOps ++ valueOps)]
  | embedded {type : String} {place : Place} :
      Sizes (.embedded type) place [.addSize (.nested place)]

/-- Steps measure all fields of a struct exactly, one after the other. -/
inductive SizesFields : List FieldLayout → List Op → Prop
  | nil : SizesFields [] []
  | cons {f : FieldLayout} {fields : List FieldLayout} {ops rest : List Op} :
      Sizes f.layout (.field f.name) ops → SizesFields fields rest →
      SizesFields (f :: fields) (ops ++ rest)

/-- The size program of a struct is exact. -/
def StructProgram.Exact (p : StructProgram) : Prop := SizesFields p.fields p.size

/-- The steps of a shape whose maps are narrow are exact. -/
theorem Shape.sizes {s : Shape} (hs : s.layout.Solid) (hmaps : s.layout.NarrowMaps) (place : Place)
    (n : Nat) : Sizes s.layout place ((s.sizeSteps place).run n).1 := by
  induction s generalizing place n with
  | fixed scalar => exact .whole (Layout.exactWidth_of_staticWidth rfl)
  | fixedBytes len => exact .whole (Layout.exactWidth_of_staticWidth rfl)
  | nullable scalar =>
    refine .nullable ?_
    cases scalar <;> rfl
  | string => exact .string
  | dynamicBytes => exact .dynamicBytes
  | embedded type name => exact .embedded
  | fixedArray len type elem ih =>
    cases hwidth : (fixedArray len type elem).layout.staticWidth with
    | some w =>
      rw [run_sizeSteps_whole hwidth]
      exact .whole (Layout.exactWidth_of_staticWidth hwidth)
    | none =>
      rw [run_sizeSteps_fixedItems hwidth]
      exact .fixedItems (Layout.noWord_of_staticWidth hs hwidth) (ih hs.2 hmaps _ _)
  | dynamicArray type elem ih =>
    cases hwidth : elem.layout.staticWidth with
    | some w =>
      rw [run_sizeSteps_counted hwidth]
      exact .counted (Layout.exactWidth_of_staticWidth hwidth)
    | none =>
      rw [run_sizeSteps_items hwidth]
      exact .items (Layout.noWord_of_staticWidth hs hwidth) (ih hs hmaps _ _)
  | map keyType valueType key value ihk ihv =>
    obtain ⟨hkey, hvalue, hsum⟩ := hmaps
    rcases Layout.staticWidth_cases key.layout value.layout with ⟨k, v, hk, hv⟩ | hnone
    · rw [run_sizeSteps_countedEntries hk hv]
      refine .countedEntries ?_
      rw [Layout.entryWidth_of_staticWidth hk hv, UInt64.toNat_add,
        Nat.mod_eq_of_lt (hsum k v hk hv)]
    · rw [run_sizeSteps_entries hnone]
      exact .entries (Layout.noWord_entryWidth hs.1 hs.2 hnone) (ihk hs.1 hkey _ _)
        (ihv hs.2 hvalue _ _)

/-! ## The programs of a document -/

/-- The steps of all fields are exact when those of each are. -/
theorem sizesFields {fields : List FieldShape} (hfields : ∀ f ∈ fields, f.shape.layout.Solid)
    (hmaps : ∀ f ∈ fields, f.shape.layout.NarrowMaps) :
    SizesFields (fields.map FieldShape.layout) (programOf Shape.sizeSteps fields) := by
  suffices hall : ∀ n, SizesFields (fields.map FieldShape.layout)
      ((fields.mapM fun (f : FieldShape) => f.shape.sizeSteps (.field f.name)).run n).1.flatten
    from hall 0
  induction fields with
  | nil => exact fun n => .nil
  | cons f fields ih =>
    intro n
    obtain ⟨hf, hrest⟩ := List.forall_mem_cons.1 hfields
    obtain ⟨hfirst, hlater⟩ := List.forall_mem_cons.1 hmaps
    rw [List.mapM_cons]
    exact .cons (f.shape.sizes hf hfirst _ n) (ih hrest hlater _)

/-- The lowering of a checked document breaks off exactly when, in some map, the static widths of
the keys and of the values do not fit a word together. Otherwise every size program is exact: every
number in it is the number of bytes that it stands for, and what no word can count is measured part
by part. -/
theorem Document.sizes_are_exact_or_lowering_stops (doc : Document) (hdoc : doc.check = .ok ()) :
    ∃ d, doc.layout = .ok d ∧ (doc.program = .error .overflow ↔ ¬ d.NarrowMaps) ∧
      (d.NarrowMaps → ∃ p, doc.program = .ok p ∧
        (p.types.map fun t => StructLayout.mk t.typeName t.fields) = d.structs ∧
        ∀ t ∈ p.types, t.Exact) := by
  obtain ⟨shapes, hshapes, _⟩ := shapes_of_check hdoc
  have hlayout := layout_of_shaped hshapes
  refine ⟨doc.layoutOf shapes, hlayout, ⟨fun hstops hmaps => ?_, overflow_of_shaped hshapes⟩,
    fun hmaps => ⟨doc.programsOf shapes, program_of_shaped hshapes hmaps, ?_, ?_⟩⟩
  · cases hstops.symm.trans (program_of_shaped hshapes hmaps)
  · rw [programsOf, layoutOf, List.map_map]
    rfl
  · refine List.forall_mem_map.2 fun s hs => ?_
    have hsolid := solid_of_layout hlayout _ (List.mem_map_of_mem hs)
    have hnarrow := hmaps _ (List.mem_map_of_mem hs)
    exact sizesFields (fun f hf => hsolid _ (List.mem_map_of_mem hf))
      fun f hf => hnarrow _ (List.mem_map_of_mem hf)

/-- A document of one struct, with a square that no word can count and a map of small entries. -/
def squareDocument : Document :=
  ⟨"p", [⟨"S", none, [⟨"G", .square 0xffffffff .uint64⟩,
    ⟨"M", ⟨.map, some (.ofKind .int32), some (.ofKind .uint16), 0, none⟩⟩]⟩]⟩

/-- The square is measured row by row, and the map by the number of its entries. -/
theorem a_large_square_is_measured_by_rows :
    squareDocument.check = .ok () ∧ ∃ p, squareDocument.program = .ok p ∧
      ∀ t ∈ p.types, t.Exact ∧
        t.size = [.forEach (.field "G") "item0" [.addSize (.const 34359738360)], .addCount,
          .addSize (.countTimes (.field "M") 6)] := by
  have hdoc : squareDocument.check = .ok () := by rfl
  obtain ⟨d, hlayout, _, hexact⟩ :=
    Document.sizes_are_exact_or_lowering_stops squareDocument hdoc
  have hmaps : d.NarrowMaps := by
    cases hlayout
    refine List.forall_mem_singleton.2 (List.forall_mem_cons.2 ⟨trivial, ?_⟩)
    refine List.forall_mem_singleton.2 ⟨trivial, trivial, ?_⟩
    rintro k v ⟨⟩ ⟨⟩
    decide
  obtain ⟨p, hp, _, hall⟩ := hexact hmaps
  refine ⟨hdoc, p, hp, fun t ht => ⟨hall t ht, ?_⟩⟩
  cases hp
  cases List.mem_singleton.1 ht
  rfl

/-- No word has the width of an entry of a map of large squares. The lowering breaks off, though the
entries could be measured one by one. -/
theorem a_map_of_squares_stops_the_lowering :
    squareMapDocument.check = .ok () ∧ squareMapDocument.layout = .ok squareMapLayout ∧
      squareMapDocument.program = .error .overflow ∧
      Layout.entryWidth (.square 0x80000000 .u16) (.square 0x80000000 .u16) = some UInt64.size ∧
      ∀ s ∈ squareMapLayout.structs,
        SizesFields s.fields [.addCount, .forEachEntry (.field "M") "key0" "val1"
          [.addSize (.const 0x8000000000000000), .addSize (.const 0x8000000000000000)]] := by
  have hwidth : Layout.entryWidth (.square 0x80000000 .u16) (.square 0x80000000 .u16) =
      some UInt64.size := by decide +kernel
  have hsquare (place : Place) : Sizes (.square 0x80000000 .u16) place
      [.addSize (.const 0x8000000000000000)] := .whole (by decide +kernel)
  have hwide : NoWord
      (Layout.entryWidth (.square 0x80000000 .u16) (.square 0x80000000 .u16)) := by
    intro n hn
    rw [← Option.some.inj (hwidth.symm.trans hn)]
  have hentries : Sizes (.map _ _) (.field "M") [.addCount, .forEachEntry (.field "M") "key0" "val1"
      ([.addSize (.const 0x8000000000000000)] ++ [.addSize (.const 0x8000000000000000)])] :=
    .entries hwide (hsquare _) (hsquare _)
  have hfields := SizesFields.cons (f := ⟨"M", .map _ _⟩) hentries .nil
  exact ⟨check_squareMapDocument, layout_squareMapDocument, program_squareMapDocument, hwidth,
    List.forall_mem_singleton.2 hfields⟩

end WireSchema
