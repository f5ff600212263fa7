-- The parts of a value with the layouts that they stand at: what a value of a layout holds,
-- directly or further inside. Only what is on the wire counts, so a field that a struct has
-- twice is the first of the two.
import Mathlib.Logic.Relation
import WireSchema.Layout.Document
import WireSchema.Value.Basic

namespace WireSchema

/-- A layout and a value that stands at it. -/
abbrev Slot := Layout × Value

/-- The layouts whose values hold no others. -/
def Layout.Plain : Layout → Prop
  | .fixedArray _ _ | .dynamicArray _ | .map _ _ | .embedded _ => False
  | _ => True

namespace Slot

/-- The slots that a slot holds directly. -/
inductive Holds (d : DocumentLayout) : Slot → Slot → Prop
  | fixedItem {len : UInt32} {elem : Layout} {xs : List Value} {x : Value} :
      x ∈ xs → Holds d (.fixedArray len elem, .array xs) (elem, x)
  | item {elem : Layout} {xs : List Value} {x : Value} :
      x ∈ xs → Holds d (.dynamicArray elem, .array xs) (elem, x)
  | key {key value : Layout} {es : List (Value × Value)} {e : Value × Value} :
      e ∈ es → Holds d (.map key value, .map es) (key, e.1)
  | value {key value : Layout} {es : List (Value × Value)} {e : Value × Value} :
      e ∈ es → Holds d (.map key value, .map es) (value, e.2)
  | field {type : String} {s : StructLayout} {f : FieldLayout} {v x : Value} :
      d.get? type = some s → f ∈ s.fields → v.field? f.name = some x →
      Holds d (.embedded type, v) (f.layout, x)

/-- The slots inside a slot, itself among them. -/
def Part (d : DocumentLayout) : Slot → Slot → Prop := Relation.ReflTransGen (Holds d)

/-- A property of every slot inside a slot. -/
def EveryPart (d : DocumentLayout) (P : Slot → Prop) (a : Slot) : Prop := ∀ b, Part d a b → P b

/-- A property of some slot inside a slot. -/
def SomePart (d : DocumentLayout) (P : Slot → Prop) (a : Slot) : Prop := ∃ b, Part d a b ∧ P b

variable {d : DocumentLayout} {P : Slot → Prop} {a b : Slot}

theorem not_holds_of_plain {l : Layout} {v : Value} (h : l.Plain) : ¬ Holds d (l, v) b := by
  rintro ⟨⟩ <;> exact h

theorem EveryPart.self (h : EveryPart d P a) : P a := h a .refl

theorem EveryPart.held (h : EveryPart d P a) (hb : Holds d a b) : EveryPart d P b :=
  fun c hc => h c (.head hb hc)

/-- Every slot inside has the property when the slot itself has it, and those that it holds have
it inside. -/
theorem everyPart_iff : EveryPart d P a ↔ P a ∧ ∀ b, Holds d a b → EveryPart d P b := by
  constructor
  · exact fun h => ⟨h.self, fun b hb => h.held hb⟩
  · rintro ⟨hP, hheld⟩ c hc
    rcases Relation.ReflTransGen.cases_head hc with rfl | ⟨b, hb, hbc⟩
    · exact hP
    · exact hheld b hb c hbc

theorem everyPart_of_plain {l : Layout} {v : Value} (hl : l.Plain) (h : P (l, v)) :
    EveryPart d P (l, v) :=
  everyPart_iff.2 ⟨h, fun _ hb => absurd hb (not_holds_of_plain hl)⟩

/-- Some slot inside has the property when the slot itself has it, or one that it holds has it
inside. -/
theorem somePart_iff : SomePart d P a ↔ P a ∨ ∃ b, Holds d a b ∧ SomePart d P b := by
  constructor
  · rintro ⟨c, hc, hP⟩
    rcases Relation.ReflTransGen.cases_head hc with rfl | ⟨b, hb, hbc⟩
    · exact Or.inl hP
    · exact Or.inr ⟨b, hb, c, hbc, hP⟩
  · rintro (hP | ⟨b, hb, c, hbc, hP⟩)
    · exact ⟨a, .refl, hP⟩
    · exact ⟨c, .head hb hbc, hP⟩

theorem somePart_iff_of_alone (h : ∀ b, ¬ Holds d a b) : SomePart d P a ↔ P a := by
  rw [somePart_iff]
  constructor
  · rintro (hP | ⟨b, hb, _⟩)
    · exact hP
    · exact absurd hb (h b)
  · exact Or.inl

end Slot

end WireSchema
