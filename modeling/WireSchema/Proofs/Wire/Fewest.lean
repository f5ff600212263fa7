-- The laws of the fewest bytes. The search for them ends by itself, since no struct is met again
-- while it is measured. No value is shorter and no reader goes on sooner. Where the structs that
-- are in every value of a struct all exist and stand at most so deep, some value takes exactly
-- the fewest bytes, so the order in which structs were measured does not show.
import Mathlib.Data.List.Chain
import WireSchema.Proofs.Wire.Order
import WireSchema.Proofs.Wire.Settled

namespace WireSchema

open Outcome Relation Wire

/-! ## The search -/

/-- A way to find the fewest bytes of a struct below those that are being measured. -/
abbrev Search := List String → String → StateM MinWidths UInt64

namespace DocumentLayout

/-- The search at one struct, where `inner` goes on with the structs in it. -/
def visit (d : DocumentLayout) (inner : Search) : Search := fun visiting name => do
  match (← get).lookup name with
  | some width => return width
  | none =>
    if visiting.contains name then return 0
    match d.get? name with
    | none => return 0
    | some s =>
      let total ← s.fields.foldlM (fun total f => do
        let width ← f.layout.minWidthM (inner (name :: visiting))
        return Width.saturatingAdd total width) 0
      modify fun found => (name, total) :: found
      return total

variable {d : DocumentLayout}

theorem measure_eq_iterate (fuel : Nat) : d.measure fuel = d.visit^[fuel] fun _ _ => pure 0 := by
  induction fuel with
  | zero => rfl
  | succ fuel ih =>
    rw [Function.iterate_succ_apply', ← ih]
    rfl

/-- A visit goes on only inside a struct that is there and is not being measured. -/
theorem visit_congr {inner inner' : Search} {visiting : List String} {name : String}
    (h : name ∉ visiting → ∀ s, d.get? name = some s →
      inner (name :: visiting) = inner' (name :: visiting)) :
    d.visit inner visiting name = d.visit inner' visiting name := by
  unfold visit
  by_cases hnew : name ∈ visiting
  · simp only [List.contains_iff_mem.2 hnew, if_true]
  · cases hs : d.get? name with
    | none => rfl
    | some s => rw [h hnew s hs]

/-- What stands at the end of the fuel is never asked for, as no more structs than there are can be
measured at once. -/
theorem iterate_visit_congr (stop stop' : Search) {fuel : Nat} {visiting : List String}
    (hfuel : d.structs.length < fuel + visiting.length) (hdiffer : visiting.Nodup)
    (hdeclared : visiting ⊆ d.structs.map StructLayout.name) (name : String) :
    (d.visit^[fuel] stop) visiting name = (d.visit^[fuel] stop') visiting name := by
  induction fuel generalizing visiting name with
  | zero =>
    have hlen := (List.subperm_of_subset hdiffer hdeclared).length_le
    rw [List.length_map] at hlen
    omega
  | succ fuel ih =>
    rw [Function.iterate_succ_apply', Function.iterate_succ_apply']
    apply visit_congr
    intro hnew s hs
    funext type
    apply ih
    · rw [List.length_cons]
      omega
    · exact List.nodup_cons.2 ⟨hnew, hdiffer⟩
    · exact List.cons_subset.2 ⟨exists_get?.1 ⟨s, hs⟩, hdeclared⟩

/-- The table after structs were looked for one after the other. -/
def tableBy (search : Search) (order : List StructLayout) : MinWidths :=
  ((order.forM fun s => discard (search [] s.name)).run []).2

theorem minWidths_eq_tableBy (d : DocumentLayout) :
    d.minWidths = tableBy (d.measure (d.structs.length + 1)) d.structs := rfl

/-- Any fuel beyond the number of structs gives the table, whatever stands at its end. -/
theorem tableBy_iterate (stop : Search) {fuel : Nat} (hfuel : d.structs.length < fuel) :
    tableBy (d.visit^[fuel] stop) d.structs = d.minWidths := by
  obtain ⟨more, rfl⟩ := Nat.exists_eq_add_of_le' hfuel
  have hsearch : (d.visit^[more + (d.structs.length + 1)] stop) [] =
      d.measure (d.structs.length + 1) [] := by
    funext name
    rw [Nat.add_comm, Function.iterate_add_apply, measure_eq_iterate]
    apply iterate_visit_congr
    · rw [List.length_nil]
      omega
    · exact List.nodup_nil
    · exact List.nil_subset _
  rw [minWidths_eq_tableBy]
  unfold tableBy
  rw [hsearch]

/-! ## Values that take the fewest bytes -/

/-- The structs that are in every value of a struct all exist, and no more than `room` stand inside
each other. So none of them embeds itself. -/
structure Grounded (d : DocumentLayout) (room : Nat) (name : String) : Prop where
  declared : ∀ inner, ReflTransGen d.Embeds name inner → ∃ s, d.get? inner = some s
  shallow : ∀ chain, List.IsChain d.Embeds (name :: chain) → (name :: chain).length ≤ room

theorem Grounded.inner {room : Nat} {name inner : String} (h : d.Grounded (room + 1) name)
    (hinner : d.Embeds name inner) : d.Grounded room inner := by
  constructor
  · intro type htype
    exact h.declared type (.head hinner htype)
  · intro chain hchain
    have hlen := h.shallow (inner :: chain) (hchain.cons_cons hinner)
    simp only [List.length_cons] at hlen ⊢
    omega

/-- Some value of the layout has just the bytes that its parts need. -/
def Reaches (d : DocumentLayout) (room : Nat) (l : Layout) : Prop :=
  ∃ v, Fits d room l v ∧ Measured d l (v.form d l).length

variable {room : Nat}

theorem reaches_fixed (scalar : Scalar) : d.Reaches room (.fixed scalar) := by
  obtain ⟨bs, hbs, -⟩ := Scalar.bytes_ofBits (List.length_replicate (n := scalar.width) (a := 0))
  refine ⟨_, .fixed hbs, ?_⟩
  rw [Value.form, Scalar.form_eq hbs, Scalar.length_bytes hbs]
  exact .fixed

/-- A layout reaches its fewest bytes when the struct in it does. -/
theorem reaches_of_inner {l : Layout}
    (h : ∀ type, l.inner? = some type → d.Reaches room (.embedded type)) : d.Reaches room l := by
  induction l with
  | fixed scalar => exact reaches_fixed scalar
  | nullable scalar => exact ⟨.null, .absent, .nullable⟩
  | string => exact ⟨.string "", .string (by decide), .string⟩
  | fixedBytes len =>
    have hlen : (List.replicate len.toNat (0 : UInt8)).length = len.toNat := List.length_replicate
    refine ⟨.bytes (List.replicate len.toNat 0), .fixedBytes hlen, ?_⟩
    rw [Value.form, hlen]
    exact .fixedBytes
  | dynamicBytes => exact ⟨.bytes [], .dynamicBytes (by decide), .dynamicBytes⟩
  | fixedArray len elem ih =>
    obtain ⟨v, hfits, hmeasured⟩ := ih h
    refine ⟨.array (List.replicate len.toNat v), .fixedArray List.length_replicate ?_, ?_⟩
    · intro x hx
      rwa [List.eq_of_mem_replicate hx]
    · have hlen :
          (Value.form d (.array (List.replicate len.toNat v)) (.fixedArray len elem)).length =
            (v.form d elem).length * len.toNat := by
        simp [Value.form, Value.formItems_eq, List.length_flatMap, Nat.mul_comm]
      rw [hlen]
      exact .fixedArray hmeasured
  | dynamicArray =>
    refine ⟨.array [], .dynamicArray (by decide) ?_, .dynamicArray⟩
    exact List.forall_mem_nil _
  | map =>
    refine ⟨.map [], .map (by decide) ?_ ?_, .map⟩
    · exact List.forall_mem_nil _
    · exact List.forall_mem_nil _
  | embedded type => exact h type rfl

/-- A struct reaches its fewest bytes when each of its fields does. -/
theorem reaches_of_fields (hd : d.FieldsDiffer) {type : String} {s : StructLayout}
    (hs : d.get? type = some s) (h : ∀ f ∈ s.fields, d.Reaches room f.layout) :
    d.Reaches (room + 1) (.embedded type) := by
  have : Nonempty Value := ⟨.null⟩
  choose! value hfits hmeasured using h
  have hlookup : ∀ f ∈ s.fields,
      (s.fields.map fun f => (f.name, value f)).lookup f.name = some (value f) := by
    intro f hf
    apply lookup_of_nodup
    · rw [List.map_map]
      exact hd.get hs
    · exact List.mem_map_of_mem (f := fun f => (f.name, value f)) hf
  refine ⟨.struct (s.fields.map fun f => (f.name, value f)), .struct hs ?_ ?_ ?_, ?_⟩
  · exact List.forall_mem_map.2 fun f hf => ⟨f, hf, rfl⟩
  · intro f hf
    exact ⟨_, hlookup f hf⟩
  · intro f hf x hx
    cases (hlookup f hf).symm.trans hx
    exact hfits f hf
  · have hform : ∀ f ∈ s.fields, Value.fieldForm d
        (.struct (s.fields.map fun f => (f.name, value f))) f = (value f).form d f.layout := by
      intro f hf
      rw [Value.fieldForm, Value.field?, hlookup f hf]
    have hparts : (s.fields.map fun f => (f, ((value f).form d f.layout).length)).map Prod.fst =
        s.fields := by
      rw [List.map_map]
      exact List.map_id _
    have hsum := Measured.struct hs hparts (List.forall_mem_map.2 hmeasured)
    rw [List.map_map] at hsum
    rwa [Value.form_embedded hs, List.flatMap_congr hform, List.length_flatMap]

/-- A grounded struct reaches its fewest bytes, with as much room as it needs. -/
theorem reaches_of_grounded (hd : d.FieldsDiffer) {name : String} (h : d.Grounded room name) :
    d.Reaches room (.embedded name) := by
  induction room generalizing name with
  | zero =>
    have hlen := h.shallow [] (.singleton name)
    cases hlen
  | succ room ih =>
    obtain ⟨s, hs⟩ := h.declared name .refl
    apply reaches_of_fields hd hs
    intro f hf
    apply reaches_of_inner
    intro type htype
    exact ih (h.inner ⟨s, hs, f, hf, htype⟩)

end DocumentLayout

/-! ## The table -/

/-- A struct of an exact table is there with its fewest bytes. -/
theorem MinWidths.Exact.lookup {d : DocumentLayout} {listed : List String} {ws : MinWidths}
    (h : ws.Exact d listed) {name : String} (hname : name ∈ listed) {n : Nat}
    (hn : Measured d (.embedded name) n) :
    ∃ width, ws.lookup name = some width ∧ width.toNat = min n (UInt64.size - 1) := by
  obtain ⟨_, hlisted⟩ := h.lists name hname
  obtain ⟨width, hwidth⟩ := Wire.exists_lookup (List.mem_map_of_mem hlisted)
  exact ⟨width, hwidth, h.exact name width (MinWidths.mem_of_lookup hwidth) n hn⟩

namespace DocumentLayout

variable {d : DocumentLayout}

/-- Structs that are measured in any order get their fewest bytes. -/
theorem lookup_tableBy {order : List StructLayout} (horder : order ⊆ d.structs) {name : String}
    (hname : name ∈ order.map StructLayout.name) {n : Nat} (hn : Measured d (.embedded name) n) :
    ∃ width, (tableBy (d.measure (d.structs.length + 1)) order).lookup name = some width ∧
      width.toNat = min n (UInt64.size - 1) := by
  have hempty : MinWidths.Exact d [] [] := ⟨nofun, nofun⟩
  exact (exact_measures horder hempty).lookup (List.mem_append_left _ hname) hn

theorem minWidth_le_of_size {room : Nat} {l : Layout} {v : Value} {path : Path} {n : Nat}
    (h : Wire.size (structSize d room) l v path = .ok n) : (d.minWidth l).toNat ≤ n := by
  obtain ⟨hfits, rfl⟩ := Wire.size_eq_ok_iff.1 h
  exact minWidth_le_length_form hfits

theorem minWidth_le_of_read {room : Nat} {l : Layout} {path : Path} {buf : List UInt8}
    {offset : Nat} {v : Value} {next : Input}
    (h : Wire.read d.minWidths (readStruct d d.minWidths room) l path (.ofBuffer buf offset) =
      .ok (v, next)) : offset + (d.minWidth l).toNat ≤ next.offset := by
  have hin := Input.sound_ofBuffer buf offset
  obtain ⟨bs, ⟨_, _, rfl⟩, hyields⟩ :=
    yields_of_read (fun _ _ _ _ _ hsound hv => yields_of_readStruct hsound hv) hin h
  have hle := minWidth_le_of_spans hyields.spans
  exact Nat.add_le_add_left hle offset

/-- The fewest bytes are found, are never undercut, and are reached where that makes sense. In
every document the search ends by itself, no value that has a size is shorter than the fewest bytes
of its layout, and no reader goes on sooner. In a document that passes the checks, a grounded
struct has a value of just its fewest bytes, at most the largest word, and it gets them in whatever
order structs are measured. -/
theorem fewest_bytes_are_sound_and_reached :
    (∀ d : DocumentLayout,
      (∀ stop fuel, d.structs.length < fuel →
        tableBy (d.visit^[fuel] stop) d.structs = d.minWidths) ∧
      (∀ room l v path n, Wire.size (structSize d room) l v path = .ok n →
        (l.minWidth d.minWidths.get).toNat ≤ n) ∧
      ∀ room l path buf offset v next,
        Wire.read d.minWidths (readStruct d d.minWidths room) l path (.ofBuffer buf offset) =
          .ok (v, next) →
        offset + (l.minWidth d.minWidths.get).toNat ≤ next.offset) ∧
    ∀ doc : Document, doc.check = .ok () → ∃ d, doc.layout = .ok d ∧
      ∀ type, d.Grounded maxDepth type → ∃ v m width,
        (Codec.ofLayout d).size type v = .ok m ∧ d.minWidths.lookup type = some width ∧
        min m (2 ^ 64 - 1) = width.toNat ∧
        ∀ order, order ⊆ d.structs → type ∈ order.map StructLayout.name →
          (tableBy (d.measure (d.structs.length + 1)) order).lookup type = some width := by
  constructor
  · intro d
    refine ⟨?_, ?_, ?_⟩
    · intro stop fuel hfuel
      exact tableBy_iterate stop hfuel
    · intro room l v path n h
      exact minWidth_le_of_size h
    · intro room l path buf offset v next h
      exact minWidth_le_of_read h
  · intro doc hdoc
    obtain ⟨shapes, hsound, hlayout, _⟩ := Document.shaped_of_check hdoc
    refine ⟨doc.layoutOf shapes, hlayout, ?_⟩
    intro type hgrounded
    have hd := doc.fieldsDiffer_layoutOf hsound
    obtain ⟨v, hfits, hmeasured⟩ := reaches_of_grounded hd hgrounded
    have hdeclared := exists_get?.1 (hgrounded.declared type .refl)
    obtain ⟨width, hwidth, heq⟩ := lookup_tableBy (List.Subset.refl _) hdeclared hmeasured
    refine ⟨v, _, width, Codec.size_eq_ok_iff.2 ⟨hfits, rfl⟩, hwidth, heq.symm, ?_⟩
    intro order horder htype
    obtain ⟨width', hwidth', heq'⟩ := lookup_tableBy horder htype hmeasured
    rwa [UInt64.toNat_inj.1 (heq.trans heq'.symm)]

/-- From a line one gets to its points and no further. -/
theorem grounded_lineLayout : lineLayout.Grounded maxDepth "Line" := by
  constructor
  · intro inner hinner
    rcases ReflTransGen.cases_tail hinner with rfl | ⟨_, _, hlast⟩
    · exact ⟨_, rfl⟩
    · rw [(embeds_lineLayout hlast).2]
      exact ⟨_, rfl⟩
  · intro chain hchain
    match chain, hchain with
    | [], _ => decide
    | [_], _ => simp [maxDepth]
    | _ :: _ :: _, .cons_cons hfirst (.cons_cons hnext _) =>
      have hpoint := (embeds_lineLayout hfirst).2
      rw [(embeds_lineLayout hnext).1] at hpoint
      exact absurd hpoint (by decide)

/-- A line takes at least eight bytes: two points of two bytes each, and the count of its stops.
Some line takes no more, and measuring the points first gives the same. -/
theorem a_line_takes_eight_bytes :
    Document.check ⟨"p", [lineStruct, pointStruct]⟩ = .ok () ∧
      lineLayout.Grounded maxDepth "Line" ∧ lineLayout.minWidths.lookup "Line" = some 8 ∧
      (∃ v m, (Codec.ofLayout lineLayout).size "Line" v = .ok m ∧ min m (2 ^ 64 - 1) = 8) ∧
      (tableBy (lineLayout.measure 3) lineLayout.structs.reverse).lookup "Line" = some 8 := by
  have hdoc : Document.check ⟨"p", [lineStruct, pointStruct]⟩ = .ok () := by rfl
  have hlookup : lineLayout.minWidths.lookup "Line" = some 8 := by rfl
  obtain ⟨d, hd, hall⟩ := fewest_bytes_are_sound_and_reached.2 _ hdoc
  obtain rfl : lineLayout = d := Except.ok.inj ((by rfl : .ok lineLayout = _).trans hd)
  obtain ⟨v, m, width, hsize, hwidth, hmin, horder⟩ := hall "Line" grounded_lineLayout
  cases hlookup.symm.trans hwidth
  refine ⟨hdoc, grounded_lineLayout, hlookup, ⟨v, m, hsize, hmin⟩, ?_⟩
  exact horder _ (by simp) (by decide)

end DocumentLayout

end WireSchema
