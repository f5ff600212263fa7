-- The fewest bytes never overstate: nothing that a layout describes takes fewer bytes than the
-- layout's fewest, whatever structs embed each other and in whatever order the table of structs
-- was filled. So no value that fits is shorter, and no reader goes on sooner.
import Mathlib.Algebra.Order.BigOperators.Group.List
import Mathlib.Algebra.Order.Ring.Nat
import WireSchema.Proofs.Wire.Fits

namespace WireSchema

namespace Wire

/-- The numbers of bytes that a layout can take, as far as its fixed parts tell. What is counted
may take any number behind the count. -/
inductive Spans (d : DocumentLayout) : Layout → Nat → Prop
  | fixed {scalar : Scalar} : Spans d (.fixed scalar) scalar.width
  | nullable {scalar : Scalar} (n : Nat) : Spans d (.nullable scalar) (flagWidth + n)
  | string (n : Nat) : Spans d .string (countWidth + n)
  | fixedBytes {len : UInt32} : Spans d (.fixedBytes len) len.toNat
  | dynamicBytes (n : Nat) : Spans d .dynamicBytes (countWidth + n)
  | fixedArray {len : UInt32} {elem : Layout} {ns : List Nat} :
      ns.length = len.toNat → (∀ n ∈ ns, Spans d elem n) → Spans d (.fixedArray len elem) ns.sum
  | dynamicArray {elem : Layout} (n : Nat) : Spans d (.dynamicArray elem) (countWidth + n)
  | map {key value : Layout} (n : Nat) : Spans d (.map key value) (countWidth + n)
  | struct {type : String} {s : StructLayout} {parts : List (FieldLayout × Nat)} :
      d.get? type = some s → parts.map Prod.fst = s.fields →
      (∀ p ∈ parts, Spans d p.1.layout p.2) → Spans d (.embedded type) (parts.map Prod.snd).sum

/-- What fits a layout takes a number of bytes that the layout can take. -/
theorem Fits.spans {d : DocumentLayout} {room : Nat} {l : Layout} {v : Value}
    (h : Fits d room l v) : Spans d l (v.form d l).length := by
  induction h with
  | fixed hbs =>
    rw [Value.form, Scalar.form_eq hbs, Scalar.length_bytes hbs]
    exact .fixed
  | absent => exact .nullable 0
  | present hne hbs =>
    rw [Value.form_present hne, List.length_cons, Nat.add_comm]
    exact .nullable _
  | string =>
    rw [Value.form, List.length_append, length_countForm]
    exact .string _
  | fixedBytes hlen =>
    rw [Value.form, hlen]
    exact .fixedBytes
  | dynamicBytes =>
    rw [Value.form, List.length_append, length_countForm]
    exact .dynamicBytes _
  | fixedArray hlen _ ih =>
    rw [Value.form, Value.formItems_eq, List.length_flatMap]
    exact .fixedArray (by rwa [List.length_map]) (List.forall_mem_map.2 ih)
  | dynamicArray =>
    rw [Value.form, List.length_append, length_countForm]
    exact .dynamicArray _
  | map =>
    rw [Value.form, List.length_append, length_countForm]
    exact .map _
  | @struct _ _ s given hs _ hall _ ih =>
    have hfield : ∀ f ∈ s.fields,
        Spans d f.layout (Value.fieldForm d (.struct given) f).length := by
      intro f hf
      obtain ⟨x, hx⟩ := hall f hf
      rw [Value.fieldForm, Value.field?, hx]
      exact ih f hf x hx
    have hspans : Spans d (.embedded _) ((s.fields.map fun f =>
        (f, (Value.fieldForm d (.struct given) f).length)).map Prod.snd).sum :=
      .struct hs (by simp [Function.comp_def]) (List.forall_mem_map.2 hfield)
    rw [List.map_map] at hspans
    rw [Value.form_embedded hs, List.length_flatMap]
    exact hspans

end Wire

open Wire

/-- A width that a layout never goes below. -/
def Layout.AtLeast (d : DocumentLayout) (l : Layout) (width : UInt64) : Prop :=
  ∀ n, Spans d l n → width.toNat ≤ n

/-- Every struct in the table is at least as wide as it says. -/
def MinWidths.Sound (d : DocumentLayout) (ws : MinWidths) : Prop :=
  ∀ name width, (name, width) ∈ ws → Layout.AtLeast d (.embedded name) width

theorem MinWidths.mem_of_lookup {ws : MinWidths} {name : String} {width : UInt64}
    (h : ws.lookup name = some width) : (name, width) ∈ ws := by
  obtain ⟨before, after, rfl, _⟩ := List.lookup_eq_some_iff.1 h
  exact List.mem_append_right before (List.mem_cons_self ..)

theorem MinWidths.Sound.cons {d : DocumentLayout} {ws : MinWidths} {name : String} {width : UInt64}
    (hws : ws.Sound d) (h : Layout.AtLeast d (.embedded name) width) :
    MinWidths.Sound d ((name, width) :: ws) := by
  intro name' width' hmem
  rcases List.mem_cons.1 hmem with heq | hmem
  · cases heq
    exact h
  · exact hws name' width' hmem

/-- A computation keeps what holds of the table, and its answer has a property. -/
def Keeps {α : Type} (I : MinWidths → Prop) (m : StateM MinWidths α) (P : α → Prop) : Prop :=
  ∀ ws : MinWidths, I ws → P (m.run ws).1 ∧ I (m.run ws).2

namespace Keeps

variable {α β : Type} {I : MinWidths → Prop} {m : StateM MinWidths α} {P : α → Prop}
  {Q : β → Prop}

theorem pure {a : α} (h : P a) : Keeps I (pure a) P := fun _ hws => ⟨h, hws⟩

theorem bind {f : α → StateM MinWidths β} (hm : Keeps I m P)
    (hf : ∀ a, P a → Keeps I (f a) Q) : Keeps I (m >>= f) Q := by
  intro ws hws
  obtain ⟨ha, hnext⟩ := hm ws hws
  exact hf _ ha _ hnext

theorem mono {P' : α → Prop} (hm : Keeps I m P) (h : ∀ a, P a → P' a) : Keeps I m P' := by
  intro ws hws
  obtain ⟨ha, hnext⟩ := hm ws hws
  exact ⟨h _ ha, hnext⟩

theorem get : Keeps I MonadState.get I := fun _ hws => ⟨hws, hws⟩

theorem insert {name : String} {width : UInt64} (h : ∀ ws, I ws → I ((name, width) :: ws)) :
    Keeps I (modify fun found => (name, width) :: found) fun _ => True :=
  fun ws hws => ⟨trivial, h ws hws⟩

end Keeps

/-! ## Layouts -/

namespace Layout

variable {d : DocumentLayout}

theorem atLeast_zero (l : Layout) : l.AtLeast d 0 := by
  intro n _
  exact Nat.zero_le _

/-- Elements that are as wide as a width make a list as wide as so many times that width. -/
theorem mul_le_length_flatMap {α : Type} {form : α → List UInt8} {width : Nat} {xs : List α}
    (h : ∀ x ∈ xs, width ≤ (form x).length) :
    width * xs.length ≤ (xs.flatMap form).length := by
  have hsum := List.card_nsmul_le_sum (xs.map fun x => (form x).length) width
    (List.forall_mem_map.2 h)
  rw [List.length_map, nsmul_eq_mul, Nat.cast_id, Nat.mul_comm] at hsum
  rwa [List.length_flatMap]

/-- Asking for the fewest bytes of a layout keeps the table sound and gives a width that the
layout never goes below, when asking for those of a struct does. -/
theorem minWidthM_keepsSound {embedded : String → StateM MinWidths UInt64}
    (h : ∀ type, Keeps (MinWidths.Sound d) (embedded type) (AtLeast d (.embedded type)))
    (l : Layout) :
    Keeps (MinWidths.Sound d) (l.minWidthM embedded) (l.AtLeast d) := by
  induction l with
  | fixed scalar =>
    refine .pure fun n hn => ?_
    cases hn
    cases scalar <;> decide
  | nullable scalar =>
    refine .pure fun n hn => ?_
    cases hn
    simp [flagWidth]
  | string | dynamicBytes | dynamicArray | map =>
    refine .pure fun n hn => ?_
    cases hn
    simp [countWidth]
  | fixedBytes len =>
    refine .pure fun n hn => ?_
    cases hn
    simp
  | fixedArray len elem ih =>
    refine ih.bind fun width hwidth => .pure fun n hn => ?_
    cases hn with
    | @fixedArray _ _ ns hlen hall =>
      have hsum := List.card_nsmul_le_sum ns width.toNat fun m hm => hwidth m (hall m hm)
      rw [nsmul_eq_mul, Nat.cast_id, Nat.mul_comm, hlen] at hsum
      rw [Width.saturatingMul, Width.toNat_saturate, UInt32.toNat_toUInt64]
      omega
  | embedded type => exact h type

theorem run_minWidthM_pure (embedded : String → UInt64) (l : Layout) (ws : MinWidths) :
    ((l.minWidthM (m := StateM MinWidths) fun type => pure (embedded type)).run ws).1 =
      l.minWidth embedded := by
  induction l with
  | fixedArray len elem ih => exact congrArg (Width.saturatingMul · len.toUInt64) ih
  | _ => rfl

theorem atLeast_get {ws : MinWidths} (hws : ws.Sound d) (type : String) :
    AtLeast d (.embedded type) (ws.get type) := by
  unfold MinWidths.get
  cases hlookup : ws.lookup type with
  | none => exact atLeast_zero _
  | some width => exact hws type width (MinWidths.mem_of_lookup hlookup)

/-- The fewest bytes of a layout by a sound table of structs. -/
theorem atLeast_minWidth {ws : MinWidths} (hws : ws.Sound d) (l : Layout) :
    l.AtLeast d (l.minWidth ws.get) := by
  have hkeeps := minWidthM_keepsSound (fun type => .pure (atLeast_get hws type)) l
  rw [← run_minWidthM_pure ws.get l ws]
  exact (hkeeps ws hws).1

end Layout

/-! ## Structs -/

namespace DocumentLayout

variable {d : DocumentLayout}

/-- Measuring fields one after the other keeps the table sound, and adds no more than the fields
take. -/
theorem measureFields_keepsSound {embedded : String → StateM MinWidths UInt64}
    (h : ∀ name, Keeps (MinWidths.Sound d) (embedded name) (Layout.AtLeast d (.embedded name)))
    (fields : List FieldLayout) (total : UInt64) :
    Keeps (MinWidths.Sound d)
      (fields.foldlM (fun total f => do
        let width ← f.layout.minWidthM embedded
        return Width.saturatingAdd total width) total)
      fun sum => ∀ parts : List (FieldLayout × Nat), parts.map Prod.fst = fields →
        (∀ p ∈ parts, Spans d p.1.layout p.2) →
        sum.toNat ≤ total.toNat + (parts.map Prod.snd).sum := by
  induction fields generalizing total with
  | nil => exact .pure fun parts _ _ => Nat.le_add_right _ _
  | cons f fields ih =>
    rw [List.foldlM_cons, bind_assoc]
    refine .bind (Layout.minWidthM_keepsSound h f.layout) fun width hwidth => ?_
    rw [pure_bind]
    refine (ih (Width.saturatingAdd total width)).mono fun sum hsum parts hparts hspans => ?_
    obtain ⟨p, parts, rfl, rfl, hrest⟩ := List.map_eq_cons_iff.1 hparts
    have hp := hwidth p.2 (hspans p (List.mem_cons_self ..))
    have hsum := hsum parts hrest fun q hq => hspans q (List.mem_cons_of_mem p hq)
    rw [Width.saturatingAdd, Width.toNat_saturate] at hsum
    rw [List.map_cons, List.sum_cons]
    omega

/-- Measuring a struct keeps the table sound and gives a width that it never goes below. -/
theorem measure_keepsSound (fuel : Nat) (visiting : List String) (name : String) :
    Keeps (MinWidths.Sound d) (d.measure fuel visiting name)
      (Layout.AtLeast d (.embedded name)) := by
  induction fuel generalizing visiting name with
  | zero => exact .pure (Layout.atLeast_zero _)
  | succ fuel ih =>
    unfold measure
    refine .bind .get fun found hfound => ?_
    split
    · rename_i width hlookup
      exact .pure (hfound name width (MinWidths.mem_of_lookup hlookup))
    · split
      · exact .pure (Layout.atLeast_zero _)
      · split
        · exact .pure (Layout.atLeast_zero _)
        · rename_i s hs
          refine .bind (P := Layout.AtLeast d (.embedded name)) ?_ fun total htotal =>
            .bind (.insert fun _ hws => hws.cons htotal) fun _ _ => .pure htotal
          refine (measureFields_keepsSound (ih (name :: visiting)) s.fields 0).mono ?_
          intro total htotal n hn
          cases hn with
          | @struct _ t parts ht hparts hspans =>
            obtain rfl : s = t := Option.some.inj (hs.symm.trans ht)
            have hsum := htotal parts hparts hspans
            rwa [UInt64.toNat_zero, Nat.zero_add] at hsum

/-- The table of a document's structs is sound. -/
theorem sound_minWidths (d : DocumentLayout) : d.minWidths.Sound d := by
  have hall : ∀ structs : List StructLayout, Keeps (MinWidths.Sound d)
      (structs.forM fun s => discard (d.measure (d.structs.length + 1) [] s.name))
      fun _ => True := by
    intro structs
    induction structs with
    | nil => exact .pure trivial
    | cons s structs ih =>
      refine .bind (P := fun _ => True) ?_ fun _ _ => ih
      exact .bind (measure_keepsSound _ [] s.name) fun _ _ => .pure trivial
  exact (hall d.structs [] fun name width hmem => by cases hmem).2

/-- A layout never takes fewer bytes than its fewest. -/
theorem minWidth_le_of_spans {d : DocumentLayout} {l : Layout} {n : Nat} (h : Spans d l n) :
    (d.minWidth l).toNat ≤ n :=
  Layout.atLeast_minWidth d.sound_minWidths l n h

/-- No value that fits a layout has a shorter form than the layout's fewest bytes. -/
theorem minWidth_le_length_form {d : DocumentLayout} {room : Nat} {l : Layout} {v : Value}
    (h : Fits d room l v) : (d.minWidth l).toNat ≤ (v.form d l).length :=
  minWidth_le_of_spans h.spans

end DocumentLayout

end WireSchema
