-- Where errors come from. A value or a buffer is gone through spot by spot, and each spot looks at
-- something of its own before it goes through its parts in order. So what fails is the first spot
-- that is reached and does not like what it sees, and every spot that is reached and fails is
-- reported.
import Mathlib.Order.WellFounded
import WireSchema.Proofs.Wire.ComesBack

namespace WireSchema

open Outcome

/-! ## Spots -/

/-- The segment goes into a struct. -/
def Segment.isField : Segment → Bool
  | .field _ => true
  | .index _ | .key _ => false

namespace Path

/-- How many structs are around a place: each field on the way is one of another struct. -/
def depth (p : Path) : Nat := p.segments.countP Segment.isField

@[simp]
theorem depth_field (p : Path) (name : String) : (p.field name).depth = p.depth + 1 := by
  unfold depth field push
  rw [List.countP_append]
  rfl

@[simp]
theorem depth_index (p : Path) (i : Nat) : (p.index i).depth = p.depth := by
  unfold depth index push
  rw [List.countP_append]
  rfl

end Path

/-- A place on the wire: its layout, and the way to it. -/
structure Spot where
  layout : Layout
  path : Path

namespace Spot

/-- The spots directly in a spot. Nothing is in a struct with too many structs around. -/
inductive Holds (d : DocumentLayout) : Spot → Spot → Prop
  | fixedItem {len : UInt32} {elem : Layout} {path : Path} (i : Nat) :
      Holds d ⟨.fixedArray len elem, path⟩ ⟨elem, path.index i⟩
  | item {elem : Layout} {path : Path} (i : Nat) :
      Holds d ⟨.dynamicArray elem, path⟩ ⟨elem, path.index i⟩
  | key {key value : Layout} {path : Path} (i : Nat) :
      Holds d ⟨.map key value, path⟩ ⟨key, path.index i⟩
  | value {key value : Layout} {path : Path} (i : Nat) :
      Holds d ⟨.map key value, path⟩ ⟨value, path.index i⟩
  | field {type : String} {path : Path} {s : StructLayout} {f : FieldLayout} :
      path.depth < maxDepth → d.get? type = some s → f ∈ s.fields →
      Holds d ⟨.embedded type, path⟩ ⟨f.layout, path.field f.name⟩

variable {d : DocumentLayout} {a b : Spot}

/-- The structs that may still come around a spot, and then the size of its layout. -/
noncomputable def height (a : Spot) : Nat × Nat := (maxDepth - a.path.depth, sizeOf a.layout)

theorem Holds.height_lt (h : Holds d a b) : Prod.Lex (· < ·) (· < ·) b.height a.height := by
  unfold height
  cases h with
  | fixedItem i | item i | key i | value i =>
    rw [Path.depth_index]
    refine .right _ ?_
    simp only [Layout.fixedArray.sizeOf_spec, Layout.dynamicArray.sizeOf_spec,
      Layout.map.sizeOf_spec]
    omega
  | field hdeep hs hf =>
    rw [Path.depth_field]
    refine .left _ _ ?_
    dsimp only
    omega

/-- Going from spots to the spots in them comes to an end. -/
theorem wellFounded (d : DocumentLayout) : WellFounded fun b a => Holds d a b :=
  Subrelation.wf Holds.height_lt (InvImage.wf height (Prod.lex Nat.lt_wfRel Nat.lt_wfRel).wf)

/-- The walk has not gone deeper than it may. -/
theorem Holds.depth_le (h : Holds d a b) (ha : a.path.depth ≤ maxDepth) :
    b.path.depth ≤ maxDepth := by
  cases h with
  | fixedItem i | item i | key i | value i =>
    rw [Path.depth_index]
    exact ha
  | field hdeep hs hf =>
    rw [Path.depth_field]
    exact hdeep

end Spot

/-! ## Tours -/

/-- A way to go through what stands at spots: first `own` looks at the spot itself and tells the
parts, and then the parts are gone through in order. -/
structure Tour (d : DocumentLayout) (α σ : Type) where
  spot : α → Spot
  own : α → σ → Except WireError (List α × σ)
  run : α → σ → Except WireError σ
  run_eq : ∀ a s, run a s = own a s >>= fun r => r.1.foldlM (fun s b => run b s) r.2
  holds : ∀ {a s r}, own a s = .ok r → ∀ b ∈ r.1, (spot a).Holds d (spot b)

namespace Tour

/-- What goes through a list fails at the first part that fails. -/
theorem foldlM_eq_error {α σ ε : Type} {f : σ → α → Except ε σ} {parts : List α} {s : σ} {e : ε} :
    parts.foldlM f s = .error e ↔ ∃ before b after s', parts = before ++ b :: after ∧
      before.foldlM f s = .ok s' ∧ f s' b = .error e := by
  induction parts generalizing s with
  | nil => simp [pure, Except.pure]
  | cons a parts ih =>
    rw [List.foldlM_cons]
    cases ha : f s a with
    | error e' =>
      constructor
      · intro h
        cases h
        exact ⟨[], a, parts, s, rfl, rfl, ha⟩
      · rintro ⟨before, b, after, s', hparts, hbefore, hb⟩
        cases before with
        | nil =>
          cases hbefore
          cases hparts
          exact ha.symm.trans hb
        | cons _ before =>
          cases hparts
          rw [List.foldlM_cons, ha] at hbefore
          cases hbefore
    | ok s₁ =>
      rw [ok_bind, ih]
      constructor
      · rintro ⟨before, b, after, s', rfl, hbefore, hb⟩
        refine ⟨a :: before, b, after, s', rfl, ?_, hb⟩
        rw [List.foldlM_cons, ha]
        exact hbefore
      · rintro ⟨before, b, after, s', hparts, hbefore, hb⟩
        cases before with
        | nil =>
          cases hbefore
          cases hparts
          cases ha.symm.trans hb
        | cons _ before =>
          cases hparts
          rw [List.foldlM_cons, ha] at hbefore
          exact ⟨before, b, after, s', rfl, hbefore, hb⟩

variable {d : DocumentLayout} {α σ : Type} (t : Tour d α σ)

/-- The tour comes from one spot to another: it goes through the parts before the one that the
other is in. -/
inductive Reaches : α → σ → α → σ → Prop
  | here {a : α} {s : σ} : Reaches a s a s
  | part {a b c : α} {s s₀ s₁ s₂ : σ} {before after : List α} :
      t.own a s = .ok (before ++ b :: after, s₀) →
      before.foldlM (fun s b => t.run b s) s₀ = .ok s₁ → Reaches b s₁ c s₂ → Reaches a s c s₂

variable {t} {a b : α} {s s' : σ} {e : WireError}

/-- A property that every spot hands on to its parts holds where the tour comes. -/
theorem Reaches.induct {P : α → Prop} (hP : ∀ {a s r}, t.own a s = .ok r → P a → ∀ b ∈ r.1, P b)
    (h : t.Reaches a s b s') (ha : P a) : P b := by
  induction h with
  | here => exact ha
  | part hown _ _ ih =>
    refine ih (hP hown ha _ ?_)
    exact List.mem_append_right _ (List.mem_cons_self ..)

theorem Reaches.depth_le (h : t.Reaches a s b s') (ha : (t.spot a).path.depth ≤ maxDepth) :
    (t.spot b).path.depth ≤ maxDepth :=
  h.induct (P := fun a => (t.spot a).path.depth ≤ maxDepth)
    (fun hown ha b hb => (t.holds hown b hb).depth_le ha) ha

/-- A tour fails when it reaches a spot that fails by itself. -/
theorem run_eq_error :
    t.run a s = .error e ↔ ∃ b s', t.Reaches a s b s' ∧ t.own b s' = .error e := by
  constructor
  · generalize hspot : t.spot a = place
    induction place using (Spot.wellFounded d).induction generalizing a s with
    | _ place ih =>
      subst hspot
      intro h
      rw [t.run_eq] at h
      cases hown : t.own a s with
      | error e' =>
        rw [hown] at h
        cases h
        exact ⟨a, s, .here, hown⟩
      | ok r =>
        obtain ⟨parts, s₀⟩ := r
        rw [hown] at h
        obtain ⟨before, b, after, s₁, rfl, hbefore, hb⟩ := foldlM_eq_error.1 h
        have hheld := t.holds hown b (List.mem_append_right _ (List.mem_cons_self ..))
        obtain ⟨c, s₂, hreach, hc⟩ := ih _ hheld rfl hb
        exact ⟨c, s₂, .part hown hbefore hreach, hc⟩
  · rintro ⟨b, s', hreach, hb⟩
    induction hreach with
    | here => rw [t.run_eq, hb, error_bind]
    | part hown hbefore _ ih =>
      rw [t.run_eq, hown, ok_bind]
      exact foldlM_eq_error.2 ⟨_, _, _, _, rfl, hbefore, ih hb⟩

end Tour

end WireSchema
