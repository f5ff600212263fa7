-- The parts of a value that its layout asks for, and when they are there.
import WireSchema.Proofs.Outcome
import WireSchema.Wire.Write

namespace WireSchema.Wire

open Outcome

theorem scalarBytes_eq_ok {scalar : Scalar} {v : Value} {path : Path} {bs : List UInt8} :
    scalarBytes scalar v path = .ok bs ↔ scalar.bytes v = .ok bs := by
  unfold scalarBytes
  cases scalar.bytes v <;> simp [Except.mapError]

theorem count_eq_ok {n m : Nat} {path : Path} :
    count n path = .ok m ↔ n < UInt32.size ∧ n = m := by
  unfold count
  split
  · simp_all
  · simp only [reduceCtorEq, false_iff]
    intro h
    omega

theorem exactLen_eq_ok {expected : UInt32} {found : Nat} {path : Path} :
    exactLen expected found path = .ok () ↔ found = expected.toNat := by
  unfold exactLen
  split <;> simp_all

theorem text_eq_ok {v : Value} {path : Path} {bs : List UInt8} :
    text v path = .ok bs ↔ ∃ s, v = .string s ∧ bs = Text.bytes s := by
  cases v <;> simp [text, eq_comm]

theorem block_eq_ok {v : Value} {path : Path} {bs : List UInt8} :
    block v path = .ok bs ↔ v = .bytes bs := by
  cases v <;> simp [block]

theorem items_eq_ok {v : Value} {path : Path} {xs : List Value} :
    items v path = .ok xs ↔ v = .array xs := by
  cases v <;> simp [items]

theorem entries_eq_ok {v : Value} {path : Path} {es : List (Value × Value)} :
    entries v path = .ok es ↔ v = .map es := by
  cases v <;> simp [entries]

theorem lookup_eq_ok {d : DocumentLayout} {type : String} {s : StructLayout} :
    lookup d type = .ok s ↔ d.get? type = some s := by
  unfold lookup
  cases d.get? type <;> simp

/-- A name that stands in a list leads to something there. -/
theorem exists_lookup {α : Type} {entries : List (String × α)} {name : String}
    (h : name ∈ entries.map Prod.fst) : ∃ x, entries.lookup name = some x := by
  cases hlookup : entries.lookup name with
  | some x => exact ⟨x, rfl⟩
  | none =>
    obtain ⟨e, he, rfl⟩ := List.mem_map.1 h
    rw [List.lookup_eq_none_iff] at hlookup
    exact absurd rfl (bne_iff_ne.1 (hlookup e he))

/-- The values of a struct's fields stand in the order of the layout, each the first that the
struct has under the name. The struct has all of them, and no other. -/
theorem fieldValues_eq_ok {s : StructLayout} {v : Value} {path : Path}
    {fields : List (FieldLayout × Value)} :
    fieldValues s v path = .ok fields ↔
      (∃ given, v = .struct given ∧ ∀ f ∈ given, ∃ g ∈ s.fields, g.name = f.1) ∧
      (∀ f ∈ s.fields, ∃ x, v.field? f.name = some x) ∧
      fields = s.fields.map fun f => (f, (v.field? f.name).getD .null) := by
  cases v with
  | struct given =>
    have hfind : given.find? (fun f => !s.fields.any (·.name == f.1)) = none ↔
        ∀ f ∈ given, ∃ g ∈ s.fields, g.name = f.1 := by
      simp [List.find?_eq_none]
    simp only [fieldValues, Value.struct.injEq, exists_eq_left', ← hfind]
    cases given.find? fun f => !s.fields.any (·.name == f.1) with
    | some f => simp
    | none =>
      rw [mapM_eq_ok]
      simp only [true_and]
      generalize s.fields = layouts
      induction layouts generalizing fields with
      | nil => simp
      | cons f layouts ih =>
        rw [List.forall₂_cons_left_iff, List.forall_mem_cons, List.map_cons]
        cases Value.field? (.struct given) f.name with
        | none => simp
        | some x =>
          simp only [Except.ok.injEq, ih]
          constructor
          · rintro ⟨_, _, rfl, ⟨hall, rfl⟩, rfl⟩
            exact ⟨⟨⟨x, rfl⟩, hall⟩, rfl⟩
          · rintro ⟨⟨_, hall⟩, rfl⟩
            exact ⟨_, _, rfl, ⟨hall, rfl⟩, rfl⟩
  | _ => simp [fieldValues]

/-! ## Sums of sizes -/

/-- Sizes are summed from the front, whatever was summed before. -/
theorem foldlM_size_add {α : Type} (size : Nat → α → Except WireError Nat) (xs : List (α × Nat))
    (start : Nat) :
    xs.foldlM (fun total x => return total + (← size x.2 x.1)) start =
      (do return start + (← xs.foldlM (fun total x => return total + (← size x.2 x.1)) 0)) := by
  induction xs generalizing start with
  | nil => rfl
  | cons x xs ih =>
    simp only [List.foldlM_cons, bind_assoc, pure_bind]
    congr 1
    funext n
    rw [ih, ih (0 + n)]
    simp only [bind_assoc, pure_bind, Nat.zero_add, Nat.add_assoc]

theorem foldlM_size_cons {α : Type} (size : Nat → α → Except WireError Nat) (x : α × Nat)
    (xs : List (α × Nat)) :
    (x :: xs).foldlM (fun total x => return total + (← size x.2 x.1)) 0 =
      (do return (← size x.2 x.1) +
        (← xs.foldlM (fun total x => return total + (← size x.2 x.1)) 0)) := by
  simp only [List.foldlM_cons, bind_assoc, pure_bind, Nat.zero_add]
  congr 1
  funext n
  exact foldlM_size_add size xs n

theorem sumSizes_isOk {α : Type} {size : Nat → α → Except WireError Nat} {xs : List α} :
    (∃ n, sumSizes size xs = .ok n) ↔ ∀ x ∈ xs.zipIdx, ∃ n, size x.2 x.1 = .ok n := by
  unfold sumSizes
  induction xs.zipIdx with
  | nil => simp [pure, Except.pure]
  | cons x xs ih =>
    rw [foldlM_size_cons, List.forall_mem_cons, ← ih]
    constructor
    · rintro ⟨n, hn⟩
      obtain ⟨a, ha, hrest⟩ := bind_eq_ok.1 hn
      obtain ⟨b, hb, _⟩ := bind_eq_ok.1 hrest
      exact ⟨⟨a, ha⟩, ⟨b, hb⟩⟩
    · rintro ⟨⟨a, ha⟩, ⟨b, hb⟩⟩
      rw [ha, hb]
      exact ⟨a + b, rfl⟩

/-- Each part of a sum that is there has a size, at some number. -/
theorem size_of_sumSizes {α : Type} {size : Nat → α → Except WireError Nat} {xs : List α}
    {n : Nat} (h : sumSizes size xs = .ok n) {x : α} (hx : x ∈ xs) :
    ∃ i m, size i x = .ok m := by
  obtain ⟨i, hi, rfl⟩ := List.mem_iff_getElem.1 hx
  have hmem : (xs[i], i) ∈ xs.zipIdx := by
    rw [List.mk_mem_zipIdx_iff_getElem?]
    exact List.getElem?_eq_getElem hi
  obtain ⟨m, hm⟩ := sumSizes_isOk.1 ⟨n, h⟩ _ hmem
  exact ⟨i, m, hm⟩

end WireSchema.Wire
