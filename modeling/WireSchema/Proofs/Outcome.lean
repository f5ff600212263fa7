-- Computations that may fail, opened from their outcome: what the parts of one that
-- succeeded gave, and which part failed. Two computations are compared by their outcomes.
import Mathlib.Data.List.Forall2

namespace WireSchema.Outcome

variable {ε δ α β γ : Type}

theorem bind_eq_ok {x : Except ε α} {f : α → Except ε β} {b : β} :
    (x >>= f) = .ok b ↔ ∃ a, x = .ok a ∧ f a = .ok b := by
  cases x with
  | error e => simp [bind, Except.bind]
  | ok a => simp [bind, Except.bind]

/-- A check before a computation has to pass. -/
theorem check_bind_eq_ok {x : Except ε Unit} {f : Unit → Except ε β} {b : β} :
    (x >>= f) = .ok b ↔ x = .ok () ∧ f () = .ok b := by
  rw [bind_eq_ok]
  constructor
  · rintro ⟨⟨⟩, hx, hf⟩
    exact ⟨hx, hf⟩
  · rintro ⟨hx, hf⟩
    exact ⟨(), hx, hf⟩

/-- A computation behind a check fails when the check does, or when it fails itself. -/
theorem check_bind_eq_error {x : Except ε Unit} {f : Unit → Except ε β} {e : ε} :
    (x >>= f) = .error e ↔ x = .error e ∨ x = .ok () ∧ f () = .error e := by
  cases x with
  | error e => simp [bind, Except.bind]
  | ok a => simp [bind, Except.bind]

@[simp]
theorem ok_bind (a : α) (f : α → Except ε β) : (Except.ok a >>= f) = f a := rfl

@[simp]
theorem error_bind (e : ε) (f : α → Except ε β) : (Except.error e >>= f) = .error e := rfl

theorem pure_eq_ok {a b : α} : (pure a : Except ε α) = .ok b ↔ a = b := by
  simp [pure, Except.pure]

theorem bind_eq_error {x : Except ε α} {f : α → Except ε β} {e : ε} :
    (x >>= f) = .error e ↔ x = .error e ∨ ∃ a, x = .ok a ∧ f a = .error e := by
  cases x with
  | error e => simp [bind, Except.bind]
  | ok a => simp [bind, Except.bind]

/-- A guarded computation succeeds when the guard holds and it does. -/
theorem guard_eq_ok {p : Prop} [Decidable p] {x : Except ε α} {e : ε} {b : α} :
    (if p then x else throw e) = .ok b ↔ p ∧ x = .ok b := by
  by_cases h : p
  · simp only [h, if_true, true_and]
  · simp [h, throw, throwThe, MonadExceptOf.throw]

/-- A computation behind an early stop succeeds when nothing stops it and it does. -/
theorem stop_eq_ok {p : Prop} [Decidable p] {x : Except ε β} {e : ε} {f : α → Except ε β} {b : β} :
    (if p then throw e >>= f else x) = .ok b ↔ ¬ p ∧ x = .ok b := by
  by_cases h : p
  · simp [h, throw, throwThe, MonadExceptOf.throw]
  · simp only [h, if_false, not_false_eq_true, true_and]

theorem map_eq_ok {x : Except ε α} {f : α → β} {b : β} :
    x.map f = .ok b ↔ ∃ a, x = .ok a ∧ f a = b := by
  cases x with
  | error e => simp [Except.map]
  | ok a => simp [Except.map]

theorem mapError_eq_ok {x : Except ε α} {f : ε → δ} {a : α} :
    x.mapError f = .ok a ↔ x = .ok a := by
  cases x with
  | error e => simp [Except.mapError]
  | ok b => simp [Except.mapError]

/-- A list of computations succeeds when each does, and gives what they give, in order. -/
theorem mapM_eq_ok {f : α → Except ε β} {xs : List α} {ys : List β} :
    xs.mapM f = .ok ys ↔ List.Forall₂ (fun x y => f x = .ok y) xs ys := by
  induction xs generalizing ys with
  | nil => simp [pure, Except.pure, eq_comm]
  | cons x xs ih =>
    simp only [List.mapM_cons, bind_eq_ok, ih, List.forall₂_cons_left_iff, pure, Except.pure,
      Except.ok.injEq]
    constructor
    · rintro ⟨y, hy, ys', hys, rfl⟩
      exact ⟨y, ys', hy, hys, rfl⟩
    · rintro ⟨y, ys', hy, hys, rfl⟩
      exact ⟨y, hy, ys', hys, rfl⟩

theorem mapM_eq_some {f : α → Option β} {xs : List α} {ys : List β} :
    xs.mapM f = some ys ↔ List.Forall₂ (fun x y => f x = some y) xs ys := by
  induction xs generalizing ys with
  | nil => simp [eq_comm]
  | cons x xs ih =>
    rw [List.mapM_cons, List.forall₂_cons_left_iff]
    constructor
    · intro h
      obtain ⟨y, hy, h⟩ := Option.bind_eq_some_iff.1 h
      obtain ⟨ys', hys, h⟩ := Option.bind_eq_some_iff.1 h
      cases h
      exact ⟨y, ys', hy, ih.1 hys, rfl⟩
    · rintro ⟨y, ys', hy, hys, rfl⟩
      rw [hy, ih.2 hys]
      rfl

/-- Where lists go together item by item, every item of the second goes with one of the first. -/
theorem exists_of_forall₂ {R : α → β → Prop} {xs : List α} {ys : List β}
    (h : List.Forall₂ R xs ys) : ∀ y ∈ ys, ∃ x ∈ xs, R x y := by
  induction h with
  | nil => exact nofun
  | @cons x y _ _ hxy _ ih =>
    refine List.forall_mem_cons.2 ⟨⟨x, List.mem_cons_self .., hxy⟩, fun z hz => ?_⟩
    obtain ⟨w, hw, hwz⟩ := ih z hz
    exact ⟨w, List.mem_cons_of_mem x hw, hwz⟩

/-- What holds of every result of a computation holds of all that a list of them gives. -/
theorem forall_of_mapM {f : α → Except ε β} {xs : List α} {ys : List β} {P : β → Prop}
    (h : xs.mapM f = .ok ys) (hf : ∀ x y, f x = .ok y → P y) : ∀ y ∈ ys, P y := by
  intro y hy
  obtain ⟨x, _, hx⟩ := exists_of_forall₂ (mapM_eq_ok.1 h) y hy
  exact hf x y hx

/-- A list whose items cannot all be had has one that cannot. -/
theorem mapM_eq_error {f : α → Except ε β} {xs : List α} {e : ε} (h : xs.mapM f = .error e) :
    ∃ x ∈ xs, f x = .error e := by
  induction xs with
  | nil => cases h
  | cons x xs ih =>
    rw [List.mapM_cons] at h
    rcases bind_eq_error.1 h with hx | ⟨y, -, hrest⟩
    · exact ⟨x, List.mem_cons_self .., hx⟩
    · rcases bind_eq_error.1 hrest with hxs | ⟨ys, -, hdone⟩
      · obtain ⟨z, hz, hfails⟩ := ih hxs
        exact ⟨z, List.mem_cons_of_mem x hz, hfails⟩
      · cases hdone

theorem forM_eq_ok {f : α → Except ε PUnit} {xs : List α} :
    xs.forM f = .ok () ↔ ∀ x ∈ xs, f x = .ok () := by
  induction xs with
  | nil => simp [pure, Except.pure]
  | cons x xs ih =>
    change (f x >>= fun _ => xs.forM f) = .ok () ↔ _
    rw [check_bind_eq_ok, ih, List.forall_mem_cons]

/-- Checks of a list end at the first that fails. -/
theorem forM_eq_error {f : α → Except ε PUnit} {xs : List α} {e : ε} (h : xs.forM f = .error e) :
    ∃ before x after, xs = before ++ x :: after ∧ (∀ y ∈ before, f y = .ok ()) ∧
      f x = .error e := by
  induction xs with
  | nil => cases h
  | cons x xs ih =>
    change (f x >>= fun _ => xs.forM f) = .error e at h
    rcases check_bind_eq_error.1 h with hx | ⟨hx, hrest⟩
    · exact ⟨[], x, xs, rfl, nofun, hx⟩
    · obtain ⟨before, y, after, rfl, hbefore, hy⟩ := ih hrest
      exact ⟨x :: before, y, after, rfl, List.forall_mem_cons.2 ⟨hx, hbefore⟩, hy⟩

/-! ## The first that fails -/

/-- All items of a list have a property, or there is a first that has not. -/
theorem forall_or_first (P : α → Prop) (xs : List α) :
    (∀ x ∈ xs, P x) ∨
      ∃ before x after, xs = before ++ x :: after ∧ (∀ y ∈ before, P y) ∧ ¬ P x := by
  induction xs with
  | nil => exact Or.inl nofun
  | cons x xs ih =>
    by_cases hx : P x
    · rcases ih with hall | ⟨before, y, after, rfl, hbefore, hy⟩
      · exact Or.inl (List.forall_mem_cons.2 ⟨hx, hall⟩)
      · exact Or.inr ⟨x :: before, y, after, rfl, List.forall_mem_cons.2 ⟨hx, hbefore⟩, hy⟩
    · exact Or.inr ⟨[], x, xs, rfl, nofun, hx⟩

/-- A list of computations fails as the first of them that does. -/
theorem mapM_of_first {f : α → Except ε β} {before after : List α} {x : α} {e : ε}
    (hbefore : ∀ y ∈ before, ∃ b, f y = .ok b) (hx : f x = .error e) :
    (before ++ x :: after).mapM f = .error e := by
  induction before with
  | nil =>
    rw [List.nil_append, List.mapM_cons, hx]
    rfl
  | cons y before ih =>
    obtain ⟨⟨b, hb⟩, hrest⟩ := List.forall_mem_cons.1 hbefore
    rw [List.cons_append, List.mapM_cons, hb, ok_bind, ih hrest]
    rfl

/-- Computations that hand on a state fail as the first of them that does in every state. -/
theorem run_mapM_of_first {σ : Type} {f : α → StateT σ (Except ε) β} {before after : List α} {x : α}
    {e : ε} (hbefore : ∀ y ∈ before, ∀ n, ∃ r, (f y).run n = .ok r)
    (hx : ∀ n, (f x).run n = .error e) (n : σ) :
    ((before ++ x :: after).mapM f).run n = .error e := by
  induction before generalizing n with
  | nil =>
    rw [List.nil_append, List.mapM_cons, StateT.run_bind, hx]
    rfl
  | cons y before ih =>
    obtain ⟨hy, hrest⟩ := List.forall_mem_cons.1 hbefore
    obtain ⟨⟨b, next⟩, hb⟩ := hy n
    rw [List.cons_append, List.mapM_cons, StateT.run_bind, hb, ok_bind, StateT.run_bind,
      ih hrest next]
    rfl

/-- Steps that each go on from what was made before fail as the first of them that does whatever was
made. -/
theorem foldlM_of_first {step : β → α → Except ε β} {before after : List α} {x : α} {e : ε}
    (hbefore : ∀ y ∈ before, ∀ b, ∃ c, step b y = .ok c) (hx : ∀ b, step b x = .error e) (b : β) :
    (before ++ x :: after).foldlM step b = .error e := by
  induction before generalizing b with
  | nil =>
    rw [List.nil_append, List.foldlM_cons, hx]
    rfl
  | cons y before ih =>
    obtain ⟨hy, hrest⟩ := List.forall_mem_cons.1 hbefore
    obtain ⟨c, hc⟩ := hy b
    rw [List.cons_append, List.foldlM_cons, hc, ok_bind, ih hrest c]

/-! ## Two computations -/

/-- The second computation gives what the first gives. -/
def Extends (x y : Except ε α) : Prop := ∀ a, x = .ok a → y = .ok a

theorem Extends.bind {x y : Except ε α} {f g : α → Except ε β} (h : Extends x y)
    (hfg : ∀ a, x = .ok a → Extends (f a) (g a)) : Extends (x >>= f) (y >>= g) := by
  intro b hb
  obtain ⟨a, ha, hb⟩ := bind_eq_ok.1 hb
  rw [h a ha, ok_bind]
  exact hfg a ha b hb

/-- Whether a computation succeeds, and why not. -/
def verdict (x : Except ε α) : Except ε Unit := x.map fun _ => ()

/-! ## Lists with names -/

/-- Where names differ, a name leads to its value. -/
theorem lookup_of_nodup {α : Type} {fields : List (String × α)}
    (h : (fields.map Prod.fst).Nodup) {name : String} {x : α} (hmem : (name, x) ∈ fields) :
    fields.lookup name = some x := by
  induction fields with
  | nil => cases hmem
  | cons f fields ih =>
    rw [List.map_cons, List.nodup_cons] at h
    rcases List.mem_cons.1 hmem with rfl | hmem
    · exact List.lookup_cons_self
    · have hne : name ≠ f.1 := by
        rintro rfl
        exact h.1 (List.mem_map.2 ⟨(f.1, x), hmem, rfl⟩)
      rw [List.lookup_cons, beq_false_of_ne hne]
      exact ih h.2 hmem

end WireSchema.Outcome
