-- Sizes that do not hang on the value. A struct has one by its layout, from the widths of its
-- fields, and one by its size program, from the constants that are added. Both are the exact number
-- of bytes where a word has it, and both are missing where no word has it.
import WireSchema.Proofs.Program.Levels
import WireSchema.Proofs.Program.Widths
import WireSchema.Proofs.Wire.Fewest

namespace WireSchema

open Outcome Wire

/-! ## Constants of size programs -/

/-- The sum of the constants that steps add to a number. There is none when a step adds anything
else, or when no word has the sum. -/
def Op.addConstants (sum : UInt64) (ops : List Op) : Option UInt64 :=
  ops.foldlM (fun sum op => op.constant?.bind (Width.checkedAdd sum)) sum

theorem Op.addConstants_append (sum : UInt64) (ops more : List Op) :
    addConstants sum (ops ++ more) = (addConstants sum ops).bind (addConstants · more) :=
  List.foldlM_append

/-- A step that adds no constant leaves no sum, whatever constant is added before it. -/
theorem Op.addConstants_pair {op : Op} (h : op.constant? = none) (sum w : UInt64) :
    addConstants sum [.addSize (.const w), op] = none := by
  rw [addConstants, List.foldlM_cons]
  refine Option.bind_eq_none_iff.2 fun total _ => ?_
  rw [List.foldlM_cons, h]
  rfl

theorem Op.addConstants_one (sum w : UInt64) :
    addConstants sum [.addSize (.const w)] = Width.checkedAdd sum w := by
  rw [addConstants, List.foldlM_cons]
  exact bind_pure (Width.checkedAdd sum w)

/-- The size program of a shape adds the static width of its layout, and nothing but a constant
where there is one. -/
theorem Shape.addConstants_sizeSteps (s : Shape) (place : Place) (n : Nat) (sum : UInt64) :
    Op.addConstants sum ((s.sizeSteps place).run n).1 =
      s.layout.staticWidth.bind (Width.checkedAdd sum) := by
  cases s with
  | fixed scalar => exact Op.addConstants_one sum _
  | fixedBytes len => exact Op.addConstants_one sum _
  | nullable | string | dynamicBytes => exact Op.addConstants_pair rfl sum _
  | embedded => rfl
  | fixedArray len type elem =>
    cases hwidth : (fixedArray len type elem).layout.staticWidth with
    | some w =>
      rw [run_sizeSteps_whole hwidth]
      exact Op.addConstants_one sum w
    | none =>
      rw [run_sizeSteps_fixedItems hwidth]
      rfl
  | dynamicArray type elem =>
    cases hwidth : elem.layout.staticWidth with
    | some w =>
      rw [run_sizeSteps_counted hwidth]
      exact Op.addConstants_pair rfl sum _
    | none =>
      rw [run_sizeSteps_items hwidth]
      exact Op.addConstants_pair rfl sum _
  | map keyType valueType key value =>
    rcases Layout.staticWidth_cases key.layout value.layout with ⟨k, v, hk, hv⟩ | hnone
    · rw [run_sizeSteps_countedEntries hk hv]
      exact Op.addConstants_pair rfl sum _
    · rw [run_sizeSteps_entries hnone]
      exact Op.addConstants_pair rfl sum _

/-- Field by field, the constants add up as the static widths do. -/
theorem addConstants_programOf (fields : List FieldShape) (sum : UInt64) :
    Op.addConstants sum (programOf Shape.sizeSteps fields) =
      (fields.map FieldShape.layout).foldlM
        (fun sum f => f.layout.staticWidth.bind (Width.checkedAdd sum)) sum := by
  suffices hall : ∀ n, Op.addConstants sum
      ((fields.mapM fun (f : FieldShape) => f.shape.sizeSteps (.field f.name)).run n).1.flatten =
        (fields.map FieldShape.layout).foldlM
          (fun sum f => f.layout.staticWidth.bind (Width.checkedAdd sum)) sum from hall 0
  induction fields generalizing sum with
  | nil => exact fun n => rfl
  | cons f fields ih =>
    intro n
    rw [List.mapM_cons, List.map_cons, List.foldlM_cons]
    refine (Op.addConstants_append sum ((f.shape.sizeSteps (.field f.name)).run n).1 _).trans ?_
    rw [Shape.addConstants_sizeSteps]
    refine Option.bind_congr fun total _ => ?_
    exact ih total _

/-- The constant size of a struct's size program is the static width of its layout. -/
theorem StructShape.constantSize_program (t : StructShape) (widths : MinWidths) :
    (t.program widths).constantSize = t.layout.staticWidth :=
  addConstants_programOf t.fields 0

/-! ## Exact widths of structs -/

/-- A layout has a static width where a word has its exact width. -/
theorem Layout.staticWidth_eq_some_iff {l : Layout} (hl : l.Solid) {w : UInt64} :
    l.staticWidth = some w ↔ l.exactWidth = some w.toNat := by
  constructor
  · exact exactWidth_of_staticWidth
  · intro hexact
    cases hwidth : l.staticWidth with
    | none =>
      have hlarge := noWord_of_staticWidth hl hwidth w.toNat hexact
      have hsmall := w.toNat_lt_size
      omega
    | some found =>
      rw [exactWidth_of_staticWidth hwidth] at hexact
      rw [UInt64.toNat_inj.1 (Option.some.inj hexact)]

namespace StructLayout

/-- The number of bytes of every value of the struct, when it does not hang on the value. The
number is as large as it is. -/
def exactWidth (s : StructLayout) : Option Nat :=
  (s.fields.mapM fun (f : FieldLayout) => f.layout.exactWidth).map List.sum

/-- Widths that are added one by one give the sum of the exact widths, where a word has it. A sum
on the way is never larger than the last. -/
theorem sumWidths_eq_some_iff {fields : List FieldLayout} (hfields : ∀ f ∈ fields, f.layout.Solid)
    {sum w : UInt64} :
    fields.foldlM (fun sum f => f.layout.staticWidth.bind (Width.checkedAdd sum)) sum = some w ↔
      ∃ ns, List.Forall₂ (fun f n => f.layout.exactWidth = some n) fields ns ∧
        w.toNat = sum.toNat + ns.sum := by
  induction fields generalizing sum with
  | nil =>
    simp only [List.foldlM_nil, List.forall₂_nil_left_iff, exists_eq_left, List.sum_nil,
      Nat.add_zero, UInt64.toNat_inj]
    exact (Option.some_inj (a := sum)).trans eq_comm
  | cons f fields ih =>
    obtain ⟨hf, hrest⟩ := List.forall_mem_cons.1 hfields
    rw [List.foldlM_cons]
    constructor
    · intro h
      obtain ⟨total, htotal, h⟩ := Option.bind_eq_some_iff.1 h
      obtain ⟨width, hwidth, hadd⟩ := Option.bind_eq_some_iff.1 htotal
      obtain ⟨ns, hns, hw⟩ := (ih hrest).1 h
      refine ⟨width.toNat :: ns, .cons (Layout.exactWidth_of_staticWidth hwidth) hns, ?_⟩
      rw [List.sum_cons, hw, Width.ofNat?_eq_some_iff.1 hadd, Nat.add_assoc]
    · rintro ⟨_ | ⟨n, ns⟩, hns, hw⟩
      · cases hns
      obtain ⟨hn, hns⟩ := List.forall₂_cons.1 hns
      rw [List.sum_cons] at hw
      have hsmall := w.toNat_lt_size
      have hwidth : (UInt64.ofNat n).toNat = n := UInt64.toNat_ofNat_of_lt' (by omega)
      have htotal : (UInt64.ofNat (sum.toNat + n)).toNat = sum.toNat + n :=
        UInt64.toNat_ofNat_of_lt' (by omega)
      refine Option.bind_eq_some_iff.2 ⟨.ofNat (sum.toNat + n), ?_, ?_⟩
      · refine Option.bind_eq_some_iff.2 ⟨.ofNat n, ?_, ?_⟩
        · rwa [Layout.staticWidth_eq_some_iff hf, hwidth]
        · rw [Width.checkedAdd, Width.ofNat?_eq_some_iff, hwidth, htotal]
      · refine (ih hrest).2 ⟨ns, hns, ?_⟩
        rw [htotal, hw, Nat.add_assoc]

theorem exactWidth_eq_some_iff {s : StructLayout} {n : Nat} :
    s.exactWidth = some n ↔
      ∃ ns, List.Forall₂ (fun f n => f.layout.exactWidth = some n) s.fields ns ∧ n = ns.sum := by
  rw [exactWidth, Option.map_eq_some_iff]
  simp only [mapM_eq_some, eq_comm (a := n)]

/-- A struct has a static width where a word has its exact width. -/
theorem staticWidth_eq_some_iff {s : StructLayout} (hs : ∀ f ∈ s.fields, f.layout.Solid)
    {w : UInt64} : s.staticWidth = some w ↔ s.exactWidth = some w.toNat := by
  rw [staticWidth, sumWidths_eq_some_iff hs, exactWidth_eq_some_iff, UInt64.toNat_zero]
  simp only [Nat.zero_add]

end StructLayout

/-! ## Values of a static size -/

variable {d : DocumentLayout}

/-- The fewest bytes of a layout that does not hang on the value are all its bytes. -/
theorem Layout.measured_of_exactWidth {l : Layout} {n : Nat} (h : l.exactWidth = some n) :
    Measured d l n := by
  induction l generalizing n with
  | fixed scalar =>
    cases h
    exact .fixed
  | fixedBytes len =>
    cases h
    exact .fixedBytes
  | fixedArray len elem ih =>
    obtain ⟨m, hm, rfl⟩ := Option.map_eq_some_iff.1 h
    rw [Nat.mul_comm]
    exact .fixedArray (ih hm)
  | _ => cases h

/-- A layout that does not hang on the value can take no other number of bytes. -/
theorem Layout.eq_of_spans {l : Layout} {m n : Nat} (h : l.exactWidth = some n)
    (hm : Spans d l m) : m = n := by
  induction l generalizing m n with
  | fixed scalar =>
    cases h
    cases hm
    rfl
  | fixedBytes len =>
    cases h
    cases hm
    rfl
  | fixedArray len elem ih =>
    obtain ⟨width, hwidth, rfl⟩ := Option.map_eq_some_iff.1 h
    cases hm with
    | @fixedArray _ _ ms hlen hall =>
      rw [List.eq_replicate_of_mem fun k hk => ih hwidth (hall k hk), hlen, List.sum_replicate_nat]
  | _ => cases h

namespace StructLayout

variable {type : String} {s : StructLayout} {n : Nat}

theorem measured_of_exactWidth (hs : d.get? type = some s) (h : s.exactWidth = some n) :
    Measured d (.embedded type) n := by
  obtain ⟨ns, hns, rfl⟩ := exactWidth_eq_some_iff.1 h
  have hfst : (s.fields.zip ns).map Prod.fst = s.fields := List.map_fst_zip hns.length_eq.le
  have hsnd : (s.fields.zip ns).map Prod.snd = ns := List.map_snd_zip hns.length_eq.ge
  rw [← hsnd]
  refine .struct hs hfst fun p hp => ?_
  exact Layout.measured_of_exactWidth (List.forall₂_zip hns hp)

theorem eq_of_spans (hs : d.get? type = some s) (h : s.exactWidth = some n) {m : Nat}
    (hm : Spans d (.embedded type) m) : m = n := by
  obtain ⟨ns, hns, rfl⟩ := exactWidth_eq_some_iff.1 h
  cases hm with
  | @struct _ t parts ht hparts hspans =>
    obtain rfl : s = t := Option.some.inj (hs.symm.trans ht)
    rw [← hparts, List.forall₂_map_left_iff] at hns
    have hsame : List.Forall₂ (fun p n => p.2 = n) parts ns :=
      ((List.forall₂_and_left _ _).2 ⟨hspans, hns⟩).imp fun p n hp => Layout.eq_of_spans hp.2 hp.1
    rw [← List.forall₂_map_left_iff, List.forall₂_eq_eq_eq] at hsame
    rw [hsame]

end StructLayout

/-! ## Documents -/

/-- A layout that does not hang on the value holds no map. -/
theorem Layout.narrowMaps_of_exactWidth {l : Layout} {n : Nat} (h : l.exactWidth = some n) :
    l.NarrowMaps := by
  induction l generalizing n with
  | fixedArray len elem ih =>
    obtain ⟨m, hm, _⟩ := Option.map_eq_some_iff.1 h
    exact ih hm
  | fixed | fixedBytes => trivial
  | _ => cases h

theorem StructLayout.narrowMaps_of_exactWidth {s : StructLayout} {n : Nat}
    (h : s.exactWidth = some n) : s.NarrowMaps := by
  obtain ⟨ns, hns, _⟩ := exactWidth_eq_some_iff.1 h
  intro f hf
  obtain ⟨m, _, hm⟩ := exists_of_forall₂ hns.flip f hf
  exact Layout.narrowMaps_of_exactWidth hm

/-- Where structs have names of their own, a struct is found by its name. -/
theorem StructShape.find?_name {shapes : List StructShape}
    (hdiffer : (shapes.map StructShape.name).Nodup) {t : StructShape} (ht : t ∈ shapes) :
    shapes.find? (·.name == t.name) = some t := by
  have hsome : (shapes.find? (·.name == t.name)).isSome :=
    List.find?_isSome.2 ⟨t, ht, beq_self_eq_true t.name⟩
  obtain ⟨found, hfound⟩ := Option.isSome_iff_exists.1 hsome
  have hname : found.name = t.name := by simpa using List.find?_some hfound
  rw [hfound, List.inj_on_of_nodup_map hdiffer (List.mem_of_find?_eq_some hfound) ht hname]

namespace Document

/-- Both computations of a static size give the same, for every struct of a document that has
layouts and whose structs have names of their own: the exact number of bytes where a word has it,
and nothing where the number hangs on the value or is too large. Where there is one, the struct has
programs, every value that has a size has that size, and it is the fewest bytes of the struct. -/
theorem static_sizes_agree {doc : Document} {d : DocumentLayout} (hlayout : doc.layout = .ok d)
    (hnames : (doc.structs.map StructDef.name).Nodup) :
    ∃ c, Codec.ofDocument doc = .ok c ∧
      ∀ s ∈ doc.messageStructs, ∃ l, s.layout = .ok l ∧ d.get? s.name = some l ∧
        (∀ t, s.program doc.minWidths = .ok t → t.constantSize = l.staticWidth) ∧
        (∀ p, doc.program = .ok p →
          ∃ t, s.program doc.minWidths = .ok t ∧ p.get? s.name = some t) ∧
        (∀ w, l.staticWidth = some w ↔ l.exactWidth = some w.toNat) ∧
        ∀ w, l.staticWidth = some w →
          (∃ t, s.program doc.minWidths = .ok t) ∧
          (∀ v n, c.size s.name v = .ok n → n = w.toNat) ∧
          d.minWidths.lookup s.name = some w := by
  obtain ⟨shapes, hshapes, rfl⟩ := shaped_of_layout hlayout
  have hwidths : doc.minWidths = (doc.layoutOf shapes).minWidths := by
    rw [minWidths, hlayout]
  refine ⟨.ofLayout (doc.layoutOf shapes), ?_, fun s hs => ?_⟩
  · rw [Codec.ofDocument, hlayout]
  obtain ⟨t, ht, hst⟩ := exists_of_forall₂ hshapes.flip s hs
  have hdiffer : (shapes.map StructShape.name).Nodup := by
    have hsame : shapes.map StructShape.name = doc.messageStructs.map StructDef.name := by
      rw [← List.forall₂_eq_eq_eq, List.forall₂_map_left_iff, List.forall₂_map_right_iff]
      exact hshapes.flip.imp fun t s h => h.name_eq
    rw [hsame]
    exact hnames.sublist (List.filter_sublist.map _)
  have hfind : shapes.find? (·.name == s.name) = some t := by
    rw [← hst.name_eq]
    exact StructShape.find?_name hdiffer ht
  have hget : (doc.layoutOf shapes).get? s.name = some t.layout := by
    rw [get?_layoutOf, hfind, Option.map_some]
  have hexact {w : UInt64} :
      t.layout.staticWidth = some w ↔ t.layout.exactWidth = some w.toNat :=
    StructLayout.staticWidth_eq_some_iff (StructDef.solid_of_layout hst.layout)
  refine ⟨t.layout, hst.layout, hget, fun p hp => ?_, fun p hp => ?_, fun w => hexact,
    fun w hw => ⟨?_, fun v n hn => ?_, ?_⟩⟩
  · rw [(hst.program_eq_ok_iff.1 hp).2]
    exact t.constantSize_program _
  · obtain ⟨hmaps, rfl⟩ := (program_eq_ok_iff hshapes).1 hp
    refine ⟨t.program doc.minWidths, hst.program (hmaps _ (List.mem_map_of_mem ht)) _, ?_⟩
    rw [get?_programsOf, hfind, hwidths, Option.map_some]
  · exact ⟨_, hst.program (StructLayout.narrowMaps_of_exactWidth (hexact.1 hw)) _⟩
  · obtain ⟨hfits, rfl⟩ := Codec.size_eq_ok_iff.1 hn
    exact StructLayout.eq_of_spans hget (hexact.1 hw) hfits.spans
  · have hmeasured := StructLayout.measured_of_exactWidth hget (hexact.1 hw)
    have hlisted := DocumentLayout.exists_get?.1 ⟨t.layout, hget⟩
    obtain ⟨width, hwidth, heq⟩ :=
      DocumentLayout.lookup_tableBy (List.Subset.refl _) hlisted hmeasured
    have hsmall := w.toNat_lt_size
    rw [Nat.min_eq_left (by omega)] at heq
    rw [← UInt64.toNat_inj.1 heq]
    exact hwidth

/-- A document of two structs, each with a square, of which a word can count the first only. -/
def squaresDocument : Document :=
  ⟨"p", [⟨"Small", none, [⟨"G", .square 3 .uint16⟩, ⟨"Key", ⟨.bytes, none, none, 5, none⟩⟩]⟩,
    ⟨"Large", none, [⟨"G", .square 0xffffffff .uint64⟩]⟩]⟩

/-- The layouts of the document with two squares. -/
def squaresLayout : DocumentLayout :=
  ⟨1, "p", .little, [⟨"Small", [⟨"G", .square 3 .u16⟩, ⟨"Key", .fixedBytes 5⟩]⟩,
    ⟨"Large", [⟨"G", .square 0xffffffff .u64⟩]⟩]⟩

/-- The small square and the key take 23 bytes in every value. The large square has no size, though
each of its rows has one. -/
theorem a_small_square_has_one_size :
    squaresDocument.layout = .ok squaresLayout ∧
      (squaresDocument.structs.map StructDef.name).Nodup ∧
      ∃ c p, Codec.ofDocument squaresDocument = .ok c ∧ squaresDocument.program = .ok p ∧
        (∃ t, p.get? "Small" = some t ∧ t.constantSize = some 23) ∧
        (∀ v n, c.size "Small" v = .ok n → n = 23) ∧
        squaresLayout.minWidths.lookup "Small" = some 23 ∧
        ∃ t, p.get? "Large" = some t ∧ t.constantSize = none := by
  have hlayout : squaresDocument.layout = .ok squaresLayout := by rfl
  have hnames : (squaresDocument.structs.map StructDef.name).Nodup := by decide
  obtain ⟨p, hp⟩ : ∃ p, squaresDocument.program = .ok p := ⟨_, rfl⟩
  obtain ⟨c, hc, hall⟩ := static_sizes_agree hlayout hnames
  have hstructs : squaresDocument.messageStructs = squaresDocument.structs := by rfl
  rw [hstructs] at hall
  obtain ⟨small, _, hsmall, hsame, hprogram, _, hsizes⟩ := hall _ (List.mem_cons_self ..)
  obtain ⟨large, _, hlarge, hnone, hmore, _⟩ :=
    hall _ (List.mem_cons_of_mem _ (List.mem_singleton_self _))
  cases hsmall
  cases hlarge
  obtain ⟨ops, hops, hget⟩ := hprogram p hp
  obtain ⟨more, hmore, hgetMore⟩ := hmore p hp
  have hwidth : StructLayout.staticWidth
      ⟨"Small", [⟨"G", .square 3 .u16⟩, ⟨"Key", .fixedBytes 5⟩]⟩ = some 23 := by decide
  obtain ⟨_, hsize, hfewest⟩ := hsizes 23 hwidth
  refine ⟨hlayout, hnames, c, p, hc, hp, ⟨ops, hget, (hsame ops hops).trans hwidth⟩, hsize,
    hfewest, more, hgetMore, (hnone more hmore).trans ?_⟩
  decide

end Document

end WireSchema
