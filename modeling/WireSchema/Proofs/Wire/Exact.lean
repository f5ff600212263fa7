-- The fewest bytes are exact wherever no struct embeds itself. The structs that are being measured
-- form a chain in which each embeds the next, so a struct that does not embed itself is never met
-- while it is measured, and the table gets its true width whatever was measured before.
import Mathlib.Data.List.Perm.Subperm
import Mathlib.Logic.Relation
import WireSchema.Proofs.Wire.MinWidth

namespace WireSchema

open Relation

/-! ## What every value of a layout holds -/

/-- The struct that is in every value of the layout. What is counted may be empty. -/
def Layout.inner? : Layout → Option String
  | .fixedArray _ elem => elem.inner?
  | .embedded type => some type
  | _ => none

/-- A struct is in every value of another. -/
def DocumentLayout.Embeds (d : DocumentLayout) (outer inner : String) : Prop :=
  ∃ s, d.get? outer = some s ∧ ∃ f ∈ s.fields, f.layout.inner? = some inner

/-- The fewest bytes of a layout, as its parts tell. A struct that is not there counts nothing. -/
inductive Measured (d : DocumentLayout) : Layout → Nat → Prop
  | fixed {scalar : Scalar} : Measured d (.fixed scalar) scalar.width
  | nullable {scalar : Scalar} : Measured d (.nullable scalar) flagWidth
  | string : Measured d .string countWidth
  | fixedBytes {len : UInt32} : Measured d (.fixedBytes len) len.toNat
  | dynamicBytes : Measured d .dynamicBytes countWidth
  | fixedArray {len : UInt32} {elem : Layout} {n : Nat} :
      Measured d elem n → Measured d (.fixedArray len elem) (n * len.toNat)
  | dynamicArray {elem : Layout} : Measured d (.dynamicArray elem) countWidth
  | map {key value : Layout} : Measured d (.map key value) countWidth
  | unknown {type : String} : d.get? type = none → Measured d (.embedded type) 0
  | struct {type : String} {s : StructLayout} {parts : List (FieldLayout × Nat)} :
      d.get? type = some s → parts.map Prod.fst = s.fields →
      (∀ p ∈ parts, Measured d p.1.layout p.2) →
      Measured d (.embedded type) (parts.map Prod.snd).sum

variable {d : DocumentLayout}

theorem DocumentLayout.exists_get? {name : String} :
    (∃ s, d.get? name = some s) ↔ name ∈ d.structs.map StructLayout.name := by
  rw [← Option.isSome_iff_exists, get?, List.find?_isSome, List.mem_map]
  simp only [beq_iff_eq]

/-- A layout has a measure when the struct in it has. -/
theorem measured_of_inner {l : Layout}
    (h : ∀ type, l.inner? = some type → ∃ n, Measured d (.embedded type) n) :
    ∃ n, Measured d l n := by
  induction l with
  | fixed => exact ⟨_, .fixed⟩
  | nullable => exact ⟨_, .nullable⟩
  | string => exact ⟨_, .string⟩
  | fixedBytes => exact ⟨_, .fixedBytes⟩
  | dynamicBytes => exact ⟨_, .dynamicBytes⟩
  | fixedArray len elem ih =>
    obtain ⟨n, hn⟩ := ih h
    exact ⟨_, .fixedArray hn⟩
  | dynamicArray => exact ⟨_, .dynamicArray⟩
  | map => exact ⟨_, .map⟩
  | embedded type => exact h type rfl

/-- A struct has a measure when each of its fields has. -/
theorem measured_of_fields {type : String} {s : StructLayout} (hs : d.get? type = some s)
    (h : ∀ f ∈ s.fields, ∃ n, Measured d f.layout n) : ∃ n, Measured d (.embedded type) n := by
  choose! width hwidth using h
  have hparts : (s.fields.map fun f => (f, width f)).map Prod.fst = s.fields := by
    rw [List.map_map]
    exact List.map_id _
  exact ⟨_, .struct hs hparts (List.forall_mem_map.2 hwidth)⟩

/-- A layout that has a measure holds no struct that embeds itself. -/
theorem Measured.acc {l : Layout} {n : Nat} (h : Measured d l n) {type : String}
    (htype : l.inner? = some type) : Acc (Function.swap d.Embeds) type := by
  induction h generalizing type with
  | fixedArray _ ih => exact ih htype
  | unknown hnone =>
    cases htype
    refine ⟨_, fun inner hinner => ?_⟩
    obtain ⟨s, hs, _⟩ := hinner
    rw [hnone] at hs
    cases hs
  | struct hs hparts _ ih =>
    cases htype
    refine ⟨_, fun inner hinner => ?_⟩
    obtain ⟨t, ht, f, hf, hlayout⟩ := hinner
    obtain rfl := Option.some.inj (hs.symm.trans ht)
    rw [← hparts] at hf
    obtain ⟨p, hp, rfl⟩ := List.mem_map.1 hf
    exact ih p hp hlayout
  | _ => cases htype

theorem not_rel_self_of_acc {α : Type} {r : α → α → Prop} {a : α} (h : Acc r a) : ¬ r a a := by
  induction h with
  | intro a _ ih => exact fun hself => ih a hself hself

theorem Measured.not_embeds_self {name : String} {n : Nat} (h : Measured d (.embedded name) n) :
    ¬ TransGen d.Embeds name name := by
  intro hself
  rw [← transGen_swap] at hself
  exact not_rel_self_of_acc (h.acc rfl).transGen hself

/-! ## Layouts -/

/-- The width that a layout has, if it has a measure. -/
def Layout.Exact (d : DocumentLayout) (l : Layout) (width : UInt64) : Prop :=
  ∀ n, Measured d l n → width.toNat = min n (UInt64.size - 1)

namespace Layout

/-- Asking for the fewest bytes of a layout gives its width when asking for those of the struct in
it does. -/
theorem minWidthM_keepsExact {I : MinWidths → Prop} {embedded : String → StateM MinWidths UInt64}
    {l : Layout}
    (h : ∀ type, l.inner? = some type → Keeps I (embedded type) (Exact d (.embedded type))) :
    Keeps I (l.minWidthM embedded) (l.Exact d) := by
  induction l with
  | fixed scalar =>
    refine .pure fun n hn => ?_
    cases hn
    cases scalar <;> decide
  | nullable | string | dynamicBytes | dynamicArray | map =>
    refine .pure fun n hn => ?_
    cases hn
    decide
  | fixedBytes len =>
    refine .pure fun n hn => ?_
    cases hn
    have hlen : len.toNat ≤ UInt64.size - 1 := Nat.le_trans (Nat.le_of_lt len.toNat_lt) (by decide)
    rw [UInt32.toNat_toUInt64, Nat.min_eq_left hlen]
  | fixedArray len elem ih =>
    refine (ih h).bind fun width hwidth => .pure fun n hn => ?_
    cases hn with
    | @fixedArray _ _ n hn =>
      rw [Width.saturatingMul, Width.toNat_saturate, UInt32.toNat_toUInt64, hwidth n hn]
      -- A width at the largest word stays there, unless nothing is counted.
      rcases Nat.eq_zero_or_pos len.toNat with hzero | hpos
      · rw [hzero, Nat.mul_zero, Nat.mul_zero]
      · rw [← Nat.mul_min_mul_right, Nat.min_assoc, Nat.min_eq_right (b := UInt64.size - 1)]
        exact Nat.le_mul_of_pos_right _ hpos
  | embedded type => exact h type rfl

end Layout

/-! ## Structs -/

/-- The structs that are being measured, the last first. Each was met inside the one before, and
what is asked for next is inside them all. -/
structure Below (d : DocumentLayout) (visiting : List String) (name : String) : Prop where
  differ : visiting.Nodup
  declared : visiting ⊆ d.structs.map StructLayout.name
  above : ∀ outer ∈ visiting, TransGen d.Embeds outer name

namespace Below

variable {visiting : List String} {name type : String} {s : StructLayout} {f : FieldLayout}

theorem nil (name : String) : Below d [] name := ⟨List.nodup_nil, List.nil_subset _, nofun⟩

theorem length_le (h : Below d visiting name) : visiting.length ≤ d.structs.length := by
  have hlen := (List.subperm_of_subset h.differ h.declared).length_le
  rwa [List.length_map] at hlen

theorem cons (h : Below d visiting name) (hnew : name ∉ visiting) (hs : d.get? name = some s)
    (hf : f ∈ s.fields) (htype : f.layout.inner? = some type) :
    Below d (name :: visiting) type := by
  have hembeds : d.Embeds name type := ⟨s, hs, f, hf, htype⟩
  refine ⟨List.nodup_cons.2 ⟨hnew, h.differ⟩, ?_, ?_⟩
  · exact List.cons_subset.2 ⟨DocumentLayout.exists_get?.1 ⟨s, hs⟩, h.declared⟩
  · refine List.forall_mem_cons.2 ⟨.single hembeds, fun outer houter => ?_⟩
    exact (h.above outer houter).tail hembeds

end Below

/-- A table whose widths are exact, and that has the given structs. -/
structure MinWidths.Exact (d : DocumentLayout) (listed : List String) (ws : MinWidths) : Prop where
  exact : ∀ name width, (name, width) ∈ ws → Layout.Exact d (.embedded name) width
  lists : ∀ name ∈ listed, ∃ width, (name, width) ∈ ws

theorem MinWidths.Exact.cons {listed : List String} {ws : MinWidths} {name : String}
    {width : UInt64} (hws : ws.Exact d listed) (h : Layout.Exact d (.embedded name) width) :
    MinWidths.Exact d listed ((name, width) :: ws) := by
  constructor
  · intro name' width' hmem
    rcases List.mem_cons.1 hmem with heq | hmem
    · cases heq
      exact h
    · exact hws.exact name' width' hmem
  · intro name' hname'
    obtain ⟨width', hmem⟩ := hws.lists name' hname'
    exact ⟨width', List.mem_cons_of_mem _ hmem⟩

namespace DocumentLayout

theorem measureFields_keepsExact {I : MinWidths → Prop}
    {embedded : String → StateM MinWidths UInt64} {fields : List FieldLayout}
    (h : ∀ f ∈ fields, ∀ type, f.layout.inner? = some type →
      Keeps I (embedded type) (Layout.Exact d (.embedded type))) (total : UInt64) :
    Keeps I
      (fields.foldlM (fun total f => do
        let width ← f.layout.minWidthM embedded
        return Width.saturatingAdd total width) total)
      fun sum => ∀ parts : List (FieldLayout × Nat), parts.map Prod.fst = fields →
        (∀ p ∈ parts, Measured d p.1.layout p.2) →
        sum.toNat = min (total.toNat + (parts.map Prod.snd).sum) (UInt64.size - 1) := by
  induction fields generalizing total with
  | nil =>
    refine .pure fun parts hparts _ => ?_
    obtain rfl := List.map_eq_nil_iff.1 hparts
    have htotal := total.toNat_lt_size
    simp only [List.map_nil, List.sum_nil]
    omega
  | cons f fields ih =>
    obtain ⟨hf, hfields⟩ := List.forall_mem_cons.1 h
    rw [List.foldlM_cons, bind_assoc]
    refine .bind (Layout.minWidthM_keepsExact hf) fun width hwidth => ?_
    rw [pure_bind]
    refine (ih hfields (Width.saturatingAdd total width)).mono fun sum hsum parts hparts hall => ?_
    obtain ⟨p, parts, rfl, rfl, hrest⟩ := List.map_eq_cons_iff.1 hparts
    have hp := hwidth p.2 (hall p (List.mem_cons_self ..))
    have hsum := hsum parts hrest fun q hq => hall q (List.mem_cons_of_mem p hq)
    rw [Width.saturatingAdd, Width.toNat_saturate] at hsum
    rw [List.map_cons, List.sum_cons]
    omega

/-- Measuring a struct below others keeps the table exact and gives the width of the struct. The
fuel is enough, as no more structs than there are can be measured at once. -/
theorem measure_keepsExact {listed visiting : List String} {name : String} {fuel : Nat}
    (hfuel : d.structs.length < fuel + visiting.length) (hbelow : Below d visiting name) :
    Keeps (MinWidths.Exact d listed) (d.measure fuel visiting name)
      (Layout.Exact d (.embedded name)) := by
  induction fuel generalizing visiting name with
  | zero =>
    have hlen := hbelow.length_le
    omega
  | succ fuel ih =>
    unfold measure
    refine .bind .get fun found hfound => ?_
    split
    · rename_i width hlookup
      exact .pure (hfound.exact name width (MinWidths.mem_of_lookup hlookup))
    · split
      · rename_i hmem
        refine .pure fun n hn => ?_
        exact absurd (hbelow.above name (List.contains_iff_mem.1 hmem)) hn.not_embeds_self
      · rename_i hnew
        rw [List.contains_iff_mem] at hnew
        split
        · rename_i hnone
          refine .pure fun n hn => ?_
          cases hn with
          | unknown => rfl
          | struct hs => cases hnone.symm.trans hs
        · rename_i s hs
          refine .bind (P := Layout.Exact d (.embedded name)) ?_ fun total htotal =>
            .bind (.insert fun _ hws => hws.cons htotal) fun _ _ => .pure htotal
          have hfields : ∀ f ∈ s.fields, ∀ type, f.layout.inner? = some type →
              Keeps (MinWidths.Exact d listed) (d.measure fuel (name :: visiting) type)
                (Layout.Exact d (.embedded type)) := by
            intro f hf type htype
            refine ih ?_ (hbelow.cons hnew hs hf htype)
            rw [List.length_cons]
            omega
          refine (measureFields_keepsExact hfields 0).mono fun total htotal n hn => ?_
          cases hn with
          | unknown hnone => cases hnone.symm.trans hs
          | @struct _ t parts ht hparts hall =>
            obtain rfl : s = t := Option.some.inj (hs.symm.trans ht)
            have hsum := htotal parts hparts hall
            rwa [UInt64.toNat_zero, Nat.zero_add] at hsum

/-- A struct that was measured is in the table. -/
theorem mem_measure {fuel : Nat} {name : String} {s : StructLayout} (hs : d.get? name = some s)
    (ws : MinWidths) : ∃ width, (name, width) ∈ ((d.measure (fuel + 1) [] name).run ws).2 := by
  unfold measure
  simp only [StateT.run_bind, StateT.run_get, pure_bind]
  cases hlookup : ws.lookup name with
  | some width => exact ⟨width, MinWidths.mem_of_lookup hlookup⟩
  | none =>
    rw [hs]
    exact ⟨_, List.mem_cons_self ..⟩

theorem exact_measure {listed : List String} {ws : MinWidths} (hws : ws.Exact d listed)
    {name : String} {s : StructLayout} (hs : d.get? name = some s) :
    MinWidths.Exact d (name :: listed) ((d.measure (d.structs.length + 1) [] name).run ws).2 := by
  have hkeeps := (measure_keepsExact (Nat.lt_succ_self _) (.nil name) ws hws).2
  exact ⟨hkeeps.exact, List.forall_mem_cons.2 ⟨mem_measure hs ws, hkeeps.lists⟩⟩

/-- Structs that are measured one after the other are all in the table at the end, as none leaves
it. -/
theorem exact_measures {structs : List StructLayout} (hsub : structs ⊆ d.structs)
    {listed : List String} {ws : MinWidths} (hws : ws.Exact d listed) :
    MinWidths.Exact d (structs.map StructLayout.name ++ listed)
      ((structs.forM fun s => discard (d.measure (d.structs.length + 1) [] s.name)).run ws).2 := by
  induction structs generalizing listed ws with
  | nil => exact hws
  | cons s structs ih =>
    obtain ⟨hs, hrest⟩ := List.cons_subset.1 hsub
    obtain ⟨t, ht⟩ := exists_get?.2 (List.mem_map_of_mem hs)
    have hexact := ih hrest (exact_measure hws ht)
    refine ⟨hexact.exact, fun name hname => hexact.lists name ?_⟩
    simpa [or_left_comm] using hname

/-- The table of a document's structs has all of them with their widths. -/
theorem exact_minWidths (d : DocumentLayout) :
    d.minWidths.Exact d (d.structs.map StructLayout.name) := by
  have hempty : MinWidths.Exact d [] [] := ⟨nofun, nofun⟩
  have hexact := exact_measures (List.Subset.refl d.structs) hempty
  rwa [List.append_nil] at hexact

theorem exact_get (d : DocumentLayout) (type : String) :
    Layout.Exact d (.embedded type) (d.minWidths.get type) := by
  intro n hn
  unfold MinWidths.get
  cases hlookup : d.minWidths.lookup type with
  | some width => exact d.exact_minWidths.exact type width (MinWidths.mem_of_lookup hlookup) n hn
  | none =>
    cases hn with
    | unknown => rfl
    | struct hs =>
      obtain ⟨width, hwidth⟩ := d.exact_minWidths.lists type (exists_get?.1 ⟨_, hs⟩)
      obtain ⟨found, hfound⟩ := Wire.exists_lookup (List.mem_map_of_mem hwidth)
      cases hlookup.symm.trans hfound

/-- The fewest bytes of a layout are those of its parts, at most the largest word. -/
theorem toNat_minWidth {l : Layout} {n : Nat} (h : Measured d l n) :
    (d.minWidth l).toNat = min n (UInt64.size - 1) := by
  have hkeeps := Layout.minWidthM_keepsExact (I := fun _ => True) (d := d) (l := l)
    fun type _ => .pure (d.exact_get type)
  rw [minWidth, ← Layout.run_minWidthM_pure d.minWidths.get l []]
  exact (hkeeps [] trivial).1 n h

/-! ## Structs that do not embed themselves -/

/-- No struct is in every value of itself. -/
def Acyclic (d : DocumentLayout) : Prop := ∀ name, ¬ TransGen d.Embeds name name

/-- A chain of structs that embed each other has an end, as there are only so many structs. -/
theorem measured_of_below (h : d.Acyclic) {room : Nat} {visiting : List String} {name : String}
    (hroom : d.structs.length < room + visiting.length) (hbelow : Below d visiting name) :
    ∃ n, Measured d (.embedded name) n := by
  induction room generalizing visiting name with
  | zero =>
    have hlen := hbelow.length_le
    omega
  | succ room ih =>
    cases hs : d.get? name with
    | none => exact ⟨0, .unknown hs⟩
    | some s =>
      have hnew : name ∉ visiting := fun hmem => h name (hbelow.above name hmem)
      refine measured_of_fields hs fun f hf => measured_of_inner fun type htype => ?_
      refine ih ?_ (hbelow.cons hnew hs hf htype)
      rw [List.length_cons]
      omega

theorem measured_of_acyclic (h : d.Acyclic) (l : Layout) : ∃ n, Measured d l n :=
  measured_of_inner fun type _ => measured_of_below h (Nat.lt_succ_self _) (.nil type)

end DocumentLayout

end WireSchema
