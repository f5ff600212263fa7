-- The order of declaration does not show on the wire. Writers find structs by name and nothing
-- else. Readers also ask for the fewest bytes, which hang on the order where structs embed
-- themselves; but no value of such a struct is ever read, so a reader that succeeds has asked
-- only for widths that no order changes.
import Mathlib.Data.List.Find
import Mathlib.Data.List.Nodup
import Mathlib.Data.List.Perm.Basic
import WireSchema.Proofs.Wire.Exact
import WireSchema.Proofs.Wire.RoundTrip

namespace WireSchema

open Outcome

/-! ## Arrays that hold something -/

-- A struct could hold itself in such an array, and values of it could be read all the same.
/-- No array in the layout has the fixed length zero. -/
def Layout.Solid : Layout → Prop
  | .fixedArray len elem => len ≠ 0 ∧ elem.Solid
  | .dynamicArray elem => elem.Solid
  | .map key value => key.Solid ∧ value.Solid
  | _ => True

/-- No array in the layouts of a document has the fixed length zero. -/
def DocumentLayout.Solid (d : DocumentLayout) : Prop :=
  ∀ s ∈ d.structs, ∀ f ∈ s.fields, f.layout.Solid

/-- A length of zero in a schema is no length. -/
theorem Descriptor.solid_of_shape {ty : Descriptor} {s : Shape} (h : ty.shape = .ok s) :
    s.layout.Solid := by
  fun_induction shape ty generalizing s with
  | case2 =>
    cases h
    split <;> trivial
  | case4 elem _ len _ ih =>
    obtain ⟨e, he, h⟩ := bind_eq_ok.1 h
    by_cases hlen : len = 0
    · simp only [hlen, bne_self_eq_false, Bool.false_eq_true, if_false] at h
      cases h
      have helem := ih he
      exact helem
    · simp only [bne_iff_ne.2 hlen, if_true] at h
      cases h
      exact ⟨hlen, ih he⟩
  | case7 value key _ _ ihk ihv =>
    obtain ⟨k, hk, h⟩ := bind_eq_ok.1 h
    obtain ⟨v, hv, h⟩ := bind_eq_ok.1 h
    cases h
    exact ⟨ihk hk, ihv hv⟩
  | case10 _ _ _ _ _ ih => exact ih h
  | case1 | case9 | case11 | case13 =>
    cases h
    trivial
  | case3 | case5 | case6 | case8 | case12 | case14 => cases h

namespace Wire

/-! ## What a reader met -/

variable {d : DocumentLayout} {input : Input}

theorem exists_read_of_readMany {α : Type} {read : Nat → Input → Except WireError (α × Input)}
    {n i : Nat} {seen : List α} {r : List α × Input} (hn : n ≠ 0)
    (h : readMany read n i seen input = .ok r) : ∃ x, read i input = .ok x := by
  obtain ⟨n, rfl⟩ := Nat.exists_eq_succ_of_ne_zero hn
  rw [readMany] at h
  cases hread : read i input with
  | ok x => exact ⟨x, rfl⟩
  | error e =>
    rw [hread] at h
    cases h

/-- What was read has a measure, when that is so for structs. -/
theorem measured_of_read {widths : MinWidths} {onStruct : ReadStruct}
    (hstruct : ∀ type path input r, onStruct type path input = .ok r →
      ∃ n, Measured d (.embedded type) n)
    {l : Layout} (hl : l.Solid) {path : Path} {r : Value × Input}
    (h : read widths onStruct l path input = .ok r) : ∃ n, Measured d l n := by
  induction l generalizing path input r with
  | fixedArray len elem ih =>
    rw [read] at h
    obtain ⟨xs, hxs, h⟩ := bind_eq_ok.1 h
    have hlen : len.toNat ≠ 0 := fun hzero => hl.1 (UInt32.toNat_inj.1 hzero)
    obtain ⟨x, hx⟩ := exists_read_of_readMany hlen hxs
    obtain ⟨n, hn⟩ := ih hl.2 hx
    exact ⟨_, .fixedArray hn⟩
  | embedded type => exact hstruct type path input r h
  | _ =>
    refine measured_of_inner fun type htype => ?_
    cases htype

theorem measured_of_readStruct (hd : d.Solid) {widths : MinWidths} {room : Nat} {type : String}
    {path : Path} {r : Value × Input} (h : readStruct d widths room type path input = .ok r) :
    ∃ n, Measured d (.embedded type) n := by
  induction room generalizing type path input r with
  | zero => cases h
  | succ room ih =>
    rw [readStruct] at h
    cases hs : d.get? type with
    | none =>
      rw [hs] at h
      cases h
    | some s =>
      rw [hs] at h
      obtain ⟨⟨fields, last⟩, hfields, h⟩ := bind_eq_ok.1 h
      refine measured_of_fields hs fun f hf => ?_
      obtain ⟨v, _, _, start, stop, hx⟩ := exists_of_forall₂ (readFields_eq_ok hfields).flip f hf
      exact measured_of_read (fun _ _ _ _ => ih) (hd s (List.mem_of_find?_eq_some hs) f hf) hx

/-! ## Readers with other widths -/

theorem offset_le_of_readCount {path : Path} {n : Nat} {next : Input}
    (h : readCount path input = .ok (n, next)) : next.offset ≤ next.len := by
  obtain ⟨⟨bs, after⟩, htake, h⟩ := bind_eq_ok.1 h
  obtain ⟨hroom, htake⟩ := check_bind_eq_ok.1 htake
  cases h
  cases htake
  unfold Input.require at hroom
  by_cases hfits : input.offset + countWidth ≤ input.len
  · exact hfits
  · simp [hfits] at hroom

theorem readCount_of_readElementCount {width : UInt64} {path : Path} {n : Nat} {next : Input}
    (h : readElementCount width path input = .ok (n, next)) :
    readCount path input = .ok (n, next) := by
  obtain ⟨⟨m, middle⟩, hcount, h⟩ := bind_eq_ok.1 h
  dsimp only at h
  by_cases hwidth : width = 0
  · rw [if_pos hwidth, stop_eq_ok] at h
    cases h.2
    exact hcount
  · rw [if_neg hwidth, check_bind_eq_ok] at h
    cases h.2
    exact hcount

/-- A count of nothing is believed whatever the width. -/
theorem readElementCount_of_width {width width' : UInt64} {path : Path} {n : Nat} {next : Input}
    (h : readElementCount width path input = .ok (n, next)) (hwidth : n ≠ 0 → width' = width) :
    readElementCount width' path input = .ok (n, next) := by
  by_cases hn : n = 0
  · subst hn
    have hcount := readCount_of_readElementCount h
    have hroom : next.require 0 path = .ok () := if_pos (offset_le_of_readCount hcount)
    unfold readElementCount
    rw [hcount, ok_bind]
    simp only [Nat.mul_zero]
    by_cases hzero : width' = 0
    · simp [hzero]
      rfl
    · simp only [hzero, if_false]
      exact check_bind_eq_ok.2 ⟨hroom, rfl⟩
  · rwa [hwidth hn]

theorem readMany_extends {α : Type} {read read' : Nat → Input → Except WireError (α × Input)}
    (h : ∀ i input, Extends (read i input) (read' i input)) (n i : Nat) (seen : List α)
    (input : Input) : Extends (readMany read n i seen input) (readMany read' n i seen input) := by
  induction n generalizing i seen input with
  | zero => exact fun _ hr => hr
  | succ n ih =>
    intro r hr
    rw [readMany] at hr ⊢
    cases hread : read i input with
    | error e =>
      rw [hread] at hr
      cases hr
    | ok x =>
      rw [hread] at hr
      rw [h i input x hread]
      exact ih (i + 1) (x.1 :: seen) x.2 r hr

/-- A counted container is read with another width when its parts are, and when the width is the
same if there is a part. -/
theorem readCountedMany_extends {α : Type}
    {read read' : Nat → Input → Except WireError (α × Input)} {width width' : UInt64}
    {wrap : List α → Value} (h : ∀ i input, Extends (read i input) (read' i input))
    (hwidth : ∀ i input x, read i input = .ok x → width' = width) (path : Path) (input : Input) :
    Extends
      (do
        let (n, input) ← readElementCount width path input
        let (xs, input) ← readMany read n 0 [] input
        return (wrap xs, input))
      (do
        let (n, input) ← readElementCount width' path input
        let (xs, input) ← readMany read' n 0 [] input
        return (wrap xs, input)) := by
  intro r hr
  obtain ⟨⟨n, next⟩, hcount, hr⟩ := bind_eq_ok.1 hr
  obtain ⟨xs, hxs, hr⟩ := bind_eq_ok.1 hr
  have hcount' : readElementCount width' path input = .ok (n, next) := by
    refine readElementCount_of_width hcount fun hn => ?_
    obtain ⟨x, hx⟩ := exists_read_of_readMany hn hxs
    exact hwidth 0 next x hx
  have hxs' := readMany_extends h n 0 [] next xs hxs
  exact bind_eq_ok.2 ⟨(n, next), hcount', bind_eq_ok.2 ⟨xs, hxs', hr⟩⟩

theorem readFields_extends
    {read read' : FieldLayout → Input → Except WireError (Value × Input)}
    {fields : List FieldLayout} (h : ∀ f ∈ fields, ∀ input, Extends (read f input) (read' f input))
    (input : Input) : Extends (readFields read fields input) (readFields read' fields input) := by
  induction fields generalizing input with
  | nil => exact fun _ hr => hr
  | cons f fields ih =>
    obtain ⟨hf, hfields⟩ := List.forall_mem_cons.1 h
    rw [readFields, readFields]
    exact (hf input).bind fun x _ => (ih hfields x.2).bind fun _ _ _ hr => hr

/-- A reader gives what it gives with other widths, when these are the same wherever it reads
something, and when structs are read so. -/
theorem read_extends {widths widths' : MinWidths} {onStruct onStruct' : ReadStruct}
    (hstruct : ∀ type path input,
      Extends (onStruct type path input) (onStruct' type path input))
    (hwidth : ∀ l : Layout, l.Solid → ∀ path input r, read widths onStruct l path input = .ok r →
      l.minWidth widths'.get = l.minWidth widths.get)
    {l : Layout} (hl : l.Solid) (path : Path) (input : Input) :
    Extends (read widths onStruct l path input) (read widths' onStruct' l path input) := by
  induction l generalizing path input with
  | fixedArray len elem ih =>
    rw [read, read]
    refine .bind ?_ fun _ _ _ hr => hr
    exact readMany_extends (fun i => ih hl.2 (path.index i)) _ _ _ input
  | dynamicArray elem ih =>
    rw [read, read]
    refine readCountedMany_extends (fun i => ih hl (path.index i)) ?_ path input
    exact fun i input x hx => hwidth elem hl (path.index i) input x hx
  | map key value ihk ihv =>
    rw [read, read]
    refine readCountedMany_extends (fun i input => ?_) (fun i input e he => ?_) path input
    · exact (ihk hl.1 (path.index i) input).bind fun k _ =>
        (ihv hl.2 (path.index i) k.2).bind fun _ _ _ hr => hr
    · obtain ⟨k, hk, he⟩ := bind_eq_ok.1 he
      obtain ⟨v, hv, he⟩ := bind_eq_ok.1 he
      rw [hwidth key hl.1 _ _ k hk, hwidth value hl.2 _ _ v hv]
  | embedded type => exact hstruct type path input
  | _ => exact fun _ hr => hr

end Wire

/-! ## Layouts in another order -/

/-- Names lead to the same structs. -/
def DocumentLayout.Same (d d' : DocumentLayout) : Prop := ∀ type, d.get? type = d'.get? type

namespace DocumentLayout.Same

variable {d d' : DocumentLayout}

theorem symm (h : d.Same d') : d'.Same d := fun type => (h type).symm

theorem measured (h : d.Same d') {l : Layout} {n : Nat} (hn : Measured d l n) :
    Measured d' l n := by
  induction hn with
  | fixed => exact .fixed
  | nullable => exact .nullable
  | string => exact .string
  | fixedBytes => exact .fixedBytes
  | dynamicBytes => exact .dynamicBytes
  | fixedArray _ ih => exact .fixedArray ih
  | dynamicArray => exact .dynamicArray
  | map => exact .map
  | unknown hnone => exact .unknown ((h _).symm.trans hnone)
  | struct hs hparts _ ih => exact .struct ((h _).symm.trans hs) hparts ih

/-- Where the fewest bytes are exact they do not hang on the order. -/
theorem minWidth (h : d.Same d') {l : Layout} {n : Nat} (hn : Measured d l n) :
    d'.minWidth l = d.minWidth l := by
  rw [← UInt64.toNat_inj, toNat_minWidth hn, toNat_minWidth (h.measured hn)]

theorem widths (h : d.Same d') (hacyclic : d.Acyclic) : d'.minWidths.get = d.minWidths.get := by
  funext type
  obtain ⟨n, hn⟩ := measured_of_acyclic hacyclic (.embedded type)
  exact h.minWidth hn

theorem structSize (h : d.Same d') (room : Nat) :
    Wire.structSize d room = Wire.structSize d' room := by
  induction room with
  | zero => rfl
  | succ room ih =>
    funext type v path
    simp only [Wire.structSize, Wire.lookup, h type, ih]

theorem writeStruct (h : d.Same d') (room : Nat) :
    Wire.writeStruct d room = Wire.writeStruct d' room := by
  induction room with
  | zero => rfl
  | succ room ih =>
    funext type v path
    simp only [Wire.writeStruct, Wire.lookup, h type, ih]

/-- What a reader gives it gives in the other order. -/
theorem readStruct (h : d.Same d') (hd : d.Solid) (room : Nat) (type : String) (path : Path)
    (input : Wire.Input) :
    Extends (Wire.readStruct d d.minWidths room type path input)
      (Wire.readStruct d' d'.minWidths room type path input) := by
  induction room generalizing type path input with
  | zero =>
    rw [Wire.readStruct, Wire.readStruct]
    exact fun _ hr => hr
  | succ room ih =>
    rw [Wire.readStruct, Wire.readStruct, ← h type]
    cases hs : d.get? type with
    | none => exact fun _ hr => hr
    | some s =>
      refine .bind (Wire.readFields_extends (fun f hf input => ?_) input) fun _ _ _ hr => hr
      refine Wire.read_extends ih ?_ (hd s (List.mem_of_find?_eq_some hs) f hf) _ input
      intro l hl path input r hr
      obtain ⟨n, hn⟩ :=
        Wire.measured_of_read (fun _ _ _ _ => Wire.measured_of_readStruct hd) hl hr
      exact h.minWidth hn

end DocumentLayout.Same

theorem Wire.read_of_widths {widths widths' : MinWidths} (h : widths'.get = widths.get)
    (onStruct : ReadStruct) (l : Layout) :
    Wire.read widths onStruct l = Wire.read widths' onStruct l := by
  induction l with
  | fixedArray len elem ih =>
    funext path input
    simp only [Wire.read, ih]
  | dynamicArray elem ih =>
    funext path input
    simp only [Wire.read, ih, h]
  | map key value ihk ihv =>
    funext path input
    simp only [Wire.read, ihk, ihv, h]
  | _ =>
    funext path input
    simp only [Wire.read]

theorem DocumentLayout.Same.readStruct_eq {d d' : DocumentLayout} (h : d.Same d')
    (hacyclic : d.Acyclic) (room : Nat) :
    Wire.readStruct d d.minWidths room = Wire.readStruct d' d'.minWidths room := by
  induction room with
  | zero =>
    funext type path input
    rw [Wire.readStruct, Wire.readStruct]
  | succ room ih =>
    funext type path input
    simp only [Wire.readStruct, h type, ih, Wire.read_of_widths (h.widths hacyclic)]

/-! ## Documents in another order -/

theorem StructDef.solid_of_layout {s : StructDef} {t : StructLayout} (h : s.layout = .ok t) :
    ∀ f ∈ t.fields, f.layout.Solid := by
  obtain ⟨fields, hfields, h⟩ := bind_eq_ok.1 h
  cases h
  intro g hg
  obtain ⟨f, _, hf⟩ := exists_of_forall₂ (mapM_eq_ok.1 hfields) g hg
  unfold Field.layout at hf
  cases hlayout : f.type.layout with
  | error e =>
    rw [hlayout] at hf
    cases hf
  | ok l =>
    rw [hlayout] at hf
    cases hf
    obtain ⟨shape, hshape, rfl⟩ := map_eq_ok.1 hlayout
    exact Descriptor.solid_of_shape hshape

namespace Document

variable {doc doc' : Document} {d d' : DocumentLayout}

theorem forall₂_of_layout (h : doc.layout = .ok d) :
    List.Forall₂ (fun s t => s.layout = .ok t) doc.messageStructs d.structs := by
  obtain ⟨structs, hstructs, h⟩ := bind_eq_ok.1 h
  cases h
  exact mapM_eq_ok.1 hstructs

theorem solid_of_layout (h : doc.layout = .ok d) : d.Solid := by
  intro t ht
  obtain ⟨s, _, hs⟩ := exists_of_forall₂ (forall₂_of_layout h) t ht
  exact StructDef.solid_of_layout hs

/-- The layouts of structs in another order are the same layouts in another order. -/
theorem perm_of_layout (hstructs : doc.messageStructs.Perm doc'.messageStructs)
    (h : doc.layout = .ok d) (h' : doc'.layout = .ok d') : d.structs.Perm d'.structs := by
  obtain ⟨structs, hlayouts, hperm⟩ := List.perm_comp_forall₂ hstructs (forall₂_of_layout h')
  have hunique : Relator.RightUnique fun (s : StructDef) t => s.layout = .ok t :=
    fun _ _ _ ht ht' => Except.ok.inj (ht.symm.trans ht')
  rwa [hunique.forall₂ (forall₂_of_layout h) hlayouts]

theorem names_of_layout (h : doc.layout = .ok d) :
    d.structs.map StructLayout.name = doc.messageStructs.map StructDef.name := by
  rw [eq_comm, ← List.forall₂_eq_eq_eq, List.forall₂_map_left_iff, List.forall₂_map_right_iff]
  refine (forall₂_of_layout h).imp fun s t hst => ?_
  obtain ⟨fields, _, hst⟩ := bind_eq_ok.1 hst
  cases hst
  rfl

/-- Names of their own lead to the same structs in every order. -/
theorem same_of_layout (hpackage : doc.package = doc'.package)
    (hperm : doc.structs.Perm doc'.structs) (hnames : (doc.structs.map StructDef.name).Nodup)
    (h : doc.layout = .ok d) (h' : doc'.layout = .ok d') : d.Same d' := by
  have hstructs : doc.messageStructs.Perm doc'.messageStructs := by
    simp only [messageStructs, isMarker, hpackage]
    exact hperm.filter _
  have hdiffer : (d.structs.map StructLayout.name).Nodup := by
    rw [names_of_layout h]
    exact hnames.sublist (List.filter_sublist.map _)
  intro type
  refine List.find?_eq_find?_of_perm (perm_of_layout hstructs h h') ?_
  rintro s ⟨hs, hsname⟩ t ⟨ht, htname⟩
  rw [beq_iff_eq] at hsname htname
  exact List.inj_on_of_nodup_map hdiffer hs ht (hsname.trans htname.symm)

end Document

/-- A line with two ends and any number of stops. -/
def lineStruct : StructDef :=
  ⟨"Line", none,
    [⟨"Ends", ⟨.array, some ⟨.struct, none, none, 0, some "Point"⟩, none, 2, none⟩⟩,
      ⟨"Stops", ⟨.array, some ⟨.struct, none, none, 0, some "Point"⟩, none, 0, none⟩⟩]⟩

/-- A point of a line. -/
def pointStruct : StructDef := ⟨"Point", none, [⟨"At", .ofKind .uint16⟩]⟩

/-- The layouts of a line and its points. -/
def lineLayout : DocumentLayout :=
  ⟨1, "p", .little,
    [⟨"Line", [⟨"Ends", .fixedArray 2 (.embedded "Point")⟩,
      ⟨"Stops", .dynamicArray (.embedded "Point")⟩]⟩,
    ⟨"Point", [⟨"At", .fixed .u16⟩]⟩]⟩

/-- The only struct that is in every value of another is the point in the line. -/
theorem embeds_lineLayout {outer inner : String} (h : lineLayout.Embeds outer inner) :
    outer = "Line" ∧ inner = "Point" := by
  obtain ⟨s, hs, f, hf, hinner⟩ := h
  have hname : s.name = outer := by simpa using List.find?_some hs
  have hmem := List.mem_of_find?_eq_some hs
  simp only [lineLayout, List.mem_cons, List.not_mem_nil, or_false] at hmem
  rcases hmem with rfl | rfl
  · simp only [List.mem_cons, List.not_mem_nil, or_false] at hf
    rcases hf with rfl | rfl
    · cases hinner
      exact ⟨hname.symm, rfl⟩
    · cases hinner
  · cases List.mem_singleton.1 hf
    cases hinner

theorem acyclic_lineLayout : lineLayout.Acyclic := by
  intro name hself
  obtain ⟨_, hfirst, _⟩ := Relation.TransGen.head'_iff.1 hself
  obtain ⟨_, _, hlast⟩ := Relation.TransGen.tail'_iff.1 hself
  exact absurd ((embeds_lineLayout hfirst).1.symm.trans (embeds_lineLayout hlast).2) (by decide)

namespace Codec

variable {d d' : DocumentLayout}

theorem size_of_same (h : d.Same d') : (ofLayout d).size = (ofLayout d').size := by
  funext type v
  exact congrFun (congrFun (congrFun (h.structSize maxDepth) type) v) _

theorem marshal_of_same (h : d.Same d') : (ofLayout d).marshal = (ofLayout d').marshal := by
  funext type v buf offset
  unfold marshal output ofLayout
  rw [h.writeStruct maxDepth]

theorem unmarshal_extends (h : d.Same d') (hd : d.Solid) (type : String) (buf : List UInt8)
    (offset : Nat) :
    Extends ((ofLayout d).unmarshal type buf offset) ((ofLayout d').unmarshal type buf offset) := by
  unfold unmarshal ofLayout
  exact (h.readStruct hd maxDepth type _ _).bind fun _ _ _ hr => hr

/-- Two documents that differ in the order of their structs have codecs that write the same and
read the same values. Where no struct embeds itself they also refuse for the same reasons. -/
theorem declaration_order_does_not_matter {doc doc' : Document}
    (hpackage : doc.package = doc'.package) (hcheck : doc.check = .ok ())
    (hcheck' : doc'.check = .ok ()) (hperm : doc.structs.Perm doc'.structs)
    (hnames : (doc.structs.map StructDef.name).Nodup) :
    ∃ c c', ofDocument doc = .ok c ∧ ofDocument doc' = .ok c' ∧
      (∀ type v, c.size type v = c'.size type v ∧ c.encode type v = c'.encode type v ∧
        ∀ buf offset, c.marshal type v buf offset = c'.marshal type v buf offset) ∧
      (∀ type buf offset r,
        c.unmarshal type buf offset = .ok r ↔ c'.unmarshal type buf offset = .ok r) ∧
      (c.layouts.Acyclic →
        ∀ type buf offset, c.unmarshal type buf offset = c'.unmarshal type buf offset) := by
  obtain ⟨shapes, -, hlayout, -⟩ := Document.shaped_of_check hcheck
  obtain ⟨shapes', -, hlayout', -⟩ := Document.shaped_of_check hcheck'
  have hsame := Document.same_of_layout hpackage hperm hnames hlayout hlayout'
  refine ⟨ofLayout _, ofLayout _, by rw [ofDocument, hlayout], by rw [ofDocument, hlayout'],
    ?_, ?_, ?_⟩
  · intro type v
    have hsize := size_of_same hsame
    have hmarshal := marshal_of_same hsame
    refine ⟨by rw [hsize], ?_, fun buf offset => by rw [hmarshal]⟩
    unfold encode
    rw [hsize, hmarshal]
  · intro type buf offset r
    have hsolid := Document.solid_of_layout hlayout
    have hsolid' := Document.solid_of_layout hlayout'
    constructor
    · exact unmarshal_extends hsame hsolid type buf offset r
    · exact unmarshal_extends hsame.symm hsolid' type buf offset r
  · intro hacyclic type buf offset
    unfold unmarshal ofLayout
    rw [hsame.readStruct_eq hacyclic]

/-- A line that is declared before its points, and after them. -/
theorem two_orders_read_alike :
    ∃ c c', ofDocument ⟨"p", [lineStruct, pointStruct]⟩ = .ok c ∧
      ofDocument ⟨"p", [pointStruct, lineStruct]⟩ = .ok c' ∧
      (∀ type v, c.encode type v = c'.encode type v) ∧
      ∀ type buf offset, c.unmarshal type buf offset = c'.unmarshal type buf offset := by
  have hcheck : Document.check ⟨"p", [lineStruct, pointStruct]⟩ = .ok () := rfl
  have hcheck' : Document.check ⟨"p", [pointStruct, lineStruct]⟩ = .ok () := rfl
  obtain ⟨c, c', hc, hc', hwrite, -, hread⟩ :=
    declaration_order_does_not_matter (by rfl) hcheck hcheck' (List.Perm.swap ..) (by decide)
  refine ⟨c, c', hc, hc', fun type v => (hwrite type v).2.1, hread ?_⟩
  obtain rfl : ofLayout lineLayout = c := Except.ok.inj hc
  exact acyclic_lineLayout

-- Where structs embed each other the place of an error hangs on the order: the struct that is
-- measured first counts the other in full.
example :
    let a : StructLayout := ⟨"A", [⟨"N", .fixed .i32⟩, ⟨"B", .embedded "B"⟩]⟩
    let b : StructLayout := ⟨"B", [⟨"A", .embedded "A"⟩]⟩
    let c : StructLayout := ⟨"C", [⟨"Bs", .dynamicArray (.embedded "B")⟩]⟩
    let bs := (Path.start "C").field "Bs"
    (ofLayout ⟨1, "p", .little, [a, b, c]⟩).unmarshal "C" [1, 0, 0, 0] 0 =
        .error (.outOfBounds (((bs.index 0).field "A").field "N") 4 4 4) ∧
      (ofLayout ⟨1, "p", .little, [b, a, c]⟩).unmarshal "C" [1, 0, 0, 0] 0 =
        .error (.outOfBounds bs 4 4 4) :=
  ⟨rfl, rfl⟩

end Codec

end WireSchema
