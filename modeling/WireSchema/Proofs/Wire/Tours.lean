-- The tours of a codec. Measuring, writing and reading go through the parts of a spot in the same
-- order: what is its own comes first, then the elements, the entries with their keys before their
-- values, or the fields. So each of the three is a tour, and fails where a tour does.
import WireSchema.Proofs.Wire.Slot
import WireSchema.Proofs.Wire.Spots

namespace WireSchema

open Outcome

namespace Wire

/-! ## Going through parts -/

section Parts

variable {α β σ ε : Type}

/-- Pairs of parts are gone through one after the other. -/
theorem foldlM_flatMap_pair {f : σ → β → Except ε σ} {fst snd : α → β} (xs : List α) (s : σ) :
    (xs.flatMap fun x => [fst x, snd x]).foldlM f s =
      xs.foldlM (fun s x => f s (fst x) >>= fun s => f s (snd x)) s := by
  induction xs generalizing s with
  | nil => rfl
  | cons x xs ih =>
    simp only [List.flatMap_cons, List.cons_append, List.nil_append, List.foldlM_cons, bind_assoc]
    exact bind_congr fun s₁ => bind_congr fun s₂ => ih s₂

/-- The numbers of parts do not matter where they are not used. -/
theorem foldlM_zipIdx_fst (f : σ → α → Except ε σ) (xs : List α) (s : σ) :
    xs.zipIdx.foldlM (fun s x => f s x.1) s = xs.foldlM f s := by
  conv_rhs => rw [← List.zipIdx_map_fst 0 xs, List.foldlM_map]

theorem verdict_bind_pure (x : Except ε α) (f : α → β) :
    verdict (x >>= fun a => pure (f a)) = verdict x := by
  cases x <;> rfl

theorem verdict_bind (x : Except ε α) (f : α → Except ε β) :
    verdict (x >>= f) = x >>= fun a => verdict (f a) := by
  cases x <;> rfl

/-- A sum is there when its parts are, one after the other. -/
theorem verdict_sumSizes (size : Nat → α → Except WireError Nat) (xs : List α) :
    verdict (sumSizes size xs) = xs.zipIdx.foldlM (fun _ x => verdict (size x.2 x.1)) () := by
  unfold sumSizes
  induction xs.zipIdx with
  | nil => rfl
  | cons x parts ih =>
    rw [foldlM_size_cons, List.foldlM_cons, verdict_bind]
    cases size x.2 x.1 with
    | error e => rfl
    | ok n =>
      rw [ok_bind, verdict_bind_pure]
      exact ih

theorem readMany_after (read : Nat → Input → Except WireError (α × Input)) (n i : Nat)
    (seen : List α) (input : Input) :
    (readMany read n i seen input >>= fun r => .ok r.2) =
      (List.range' i n).foldlM (fun input i => read i input >>= fun r => .ok r.2) input := by
  induction n generalizing i seen input with
  | zero => rfl
  | succ n ih =>
    rw [readMany, List.range'_succ, List.foldlM_cons]
    cases read i input with
    | error e => rfl
    | ok r => exact ih (i + 1) (r.1 :: seen) r.2

theorem readFields_after (read : FieldLayout → Input → Except WireError (Value × Input))
    (fields : List FieldLayout) (input : Input) :
    (readFields read fields input >>= fun r => .ok r.2) =
      fields.foldlM (fun input f => read f input >>= fun r => .ok r.2) input := by
  induction fields generalizing input with
  | nil => rfl
  | cons f fields ih =>
    rw [readFields, List.foldlM_cons]
    cases read f input with
    | error e => rfl
    | ok r =>
      obtain ⟨v, rest⟩ := r
      rw [ok_bind, ok_bind]
      refine Eq.trans ?_ (ih rest)
      dsimp only
      cases readFields read fields rest <;> rfl

end Parts

/-! ## Parts of a value -/

/-- The parts of a value at a spot, if it is one of the layout as far as the spot itself shows. -/
def parts (d : DocumentLayout) (a : Spot × Value) : Except WireError (List (Spot × Value)) :=
  let path := a.1.path
  match a.1.layout with
  | .fixedArray len elem => do
    let xs ← items a.2 path
    exactLen len xs.length path
    return xs.zipIdx.map fun x => (⟨elem, path.index x.2⟩, x.1)
  | .dynamicArray elem => do
    let xs ← items a.2 path
    let _ ← count xs.length path
    return xs.zipIdx.map fun x => (⟨elem, path.index x.2⟩, x.1)
  | .map key value => do
    let es ← entries a.2 path
    let _ ← count es.length path
    return es.zipIdx.flatMap fun e =>
      [(⟨key, path.index e.2⟩, e.1.1), (⟨value, path.index e.2⟩, e.1.2)]
  | .embedded type =>
    if maxDepth ≤ path.depth then .error (.depthExceeded path)
    else do
      let s ← lookup d type
      let fields ← fieldValues s a.2 path
      return fields.map fun f => (⟨f.1.layout, path.field f.1.name⟩, f.2)
  | l => do
    verdict (size (fun _ _ _ => .ok 0) l a.2 path)
    return []

variable {d : DocumentLayout}

/-- The parts of a value stand at spots in its spot. -/
theorem holds_of_parts {a : Spot × Value} {ps : List (Spot × Value)} (h : parts d a = .ok ps) :
    ∀ b ∈ ps, a.1.Holds d b.1 := by
  obtain ⟨⟨l, path⟩, v⟩ := a
  unfold parts at h
  cases l with
  | fixedArray len elem =>
    obtain ⟨xs, -, h⟩ := bind_eq_ok.1 h
    obtain ⟨-, h⟩ := check_bind_eq_ok.1 h
    cases h
    intro b hb
    obtain ⟨x, -, rfl⟩ := List.mem_map.1 hb
    exact .fixedItem x.2
  | dynamicArray elem =>
    obtain ⟨xs, -, h⟩ := bind_eq_ok.1 h
    obtain ⟨n, -, h⟩ := bind_eq_ok.1 h
    cases h
    intro b hb
    obtain ⟨x, -, rfl⟩ := List.mem_map.1 hb
    exact .item x.2
  | map key value =>
    obtain ⟨es, -, h⟩ := bind_eq_ok.1 h
    obtain ⟨n, -, h⟩ := bind_eq_ok.1 h
    cases h
    intro b hb
    obtain ⟨e, -, hb⟩ := List.mem_flatMap.1 hb
    rcases List.mem_pair.1 hb with rfl | rfl
    · exact .key e.2
    · exact .value e.2
  | embedded type =>
    dsimp only at h
    split at h
    · cases h
    next hdeep =>
      obtain ⟨s, hs, h⟩ := bind_eq_ok.1 h
      obtain ⟨fields, hfields, h⟩ := bind_eq_ok.1 h
      cases h
      intro b hb
      obtain ⟨f, hf, rfl⟩ := List.mem_map.1 hb
      obtain ⟨-, -, rfl⟩ := fieldValues_eq_ok.1 hfields
      obtain ⟨g, hg, rfl⟩ := List.mem_map.1 hf
      exact .field (Nat.not_le.1 hdeep) (lookup_eq_ok.1 hs) hg
  | fixed | nullable | string | fixedBytes | dynamicBytes =>
    obtain ⟨-, h⟩ := check_bind_eq_ok.1 h
    cases h
    exact nofun

/-- A struct that has room holds structs with one room less. -/
theorem room_cases (depth : Nat) : maxDepth ≤ depth ∧ maxDepth - depth = 0 ∨
    ¬ maxDepth ≤ depth ∧ maxDepth - depth = maxDepth - (depth + 1) + 1 := by
  omega

/-! ## Measuring -/

/-- Measures what stands at a spot. -/
def measure (d : DocumentLayout) (a : Spot × Value) : Except WireError Unit :=
  verdict (size (structSize d (maxDepth - a.1.path.depth)) a.1.layout a.2 a.1.path)

theorem measure_index (elem : Layout) (path : Path) (i : Nat) (x : Value) :
    measure d (⟨elem, path.index i⟩, x) =
      verdict (size (structSize d (maxDepth - path.depth)) elem x (path.index i)) := by
  unfold measure
  rw [Path.depth_index]

theorem measure_field (f : FieldLayout) (path : Path) (x : Value) :
    measure d (⟨f.layout, path.field f.name⟩, x) =
      verdict (size (structSize d (maxDepth - (path.depth + 1))) f.layout x
        (path.field f.name)) := by
  unfold measure
  rw [Path.depth_field]

theorem measure_items (elem : Layout) (path : Path) (xs : List Value) :
    verdict (sumSizes (fun i x =>
        size (structSize d (maxDepth - path.depth)) elem x (path.index i)) xs) =
      (xs.zipIdx.map fun x => ((⟨elem, path.index x.2⟩ : Spot), x.1)).foldlM
        (fun _ b => measure d b) () := by
  rw [verdict_sumSizes, List.foldlM_map]
  simp only [measure_index]

/-- The size of a value without parts does not depend on structs. -/
theorem size_of_plain {l : Layout} (hl : l.Plain) (f g : OnStruct (Except WireError Nat))
    (v : Value) (path : Path) : size f l v path = size g l v path := by
  cases l with
  | fixedArray | dynamicArray | map | embedded => cases hl
  | _ => rfl

/-- Measuring looks at the spot itself and then measures the parts. -/
theorem measure_eq (a : Spot × Value) :
    measure d a = parts d a >>= fun ps => ps.foldlM (fun _ b => measure d b) () := by
  obtain ⟨⟨l, path⟩, v⟩ := a
  have hplain (hl : l.Plain) := size_of_plain hl (structSize d (maxDepth - path.depth))
    (fun _ _ _ => .ok 0) v path
  unfold parts
  rw [measure]
  cases l with
  | fixedArray len elem =>
    rw [size]
    dsimp only
    cases items v path with
    | error e => rfl
    | ok xs =>
      rw [ok_bind, ok_bind]
      cases exactLen len xs.length path with
      | error e => rfl
      | ok => exact measure_items elem path xs
  | dynamicArray elem =>
    rw [size]
    dsimp only
    cases items v path with
    | error e => rfl
    | ok xs =>
      rw [ok_bind, ok_bind]
      cases count xs.length path with
      | error e => rfl
      | ok n => exact (verdict_bind_pure _ _).trans (measure_items elem path xs)
  | map key value =>
    rw [size]
    dsimp only
    cases entries v path with
    | error e => rfl
    | ok es =>
      rw [ok_bind, ok_bind]
      cases count es.length path with
      | error e => rfl
      | ok n =>
        refine (verdict_bind_pure _ _).trans ?_
        rw [verdict_sumSizes, ok_bind, pure_bind, foldlM_flatMap_pair]
        simp only [measure_index]
        congr 1
        funext _ e
        cases size (structSize d (maxDepth - path.depth)) key e.1.1 (path.index e.2) with
        | error e => rfl
        | ok m => exact verdict_bind_pure _ _
  | embedded type =>
    rw [size]
    dsimp only
    rcases room_cases path.depth with ⟨hdeep, hroom⟩ | ⟨hdeep, hroom⟩
    · rw [if_pos hdeep, hroom]
      rfl
    · rw [if_neg hdeep, hroom, structSize]
      cases lookup d type with
      | error e => rfl
      | ok s =>
        rw [ok_bind, ok_bind]
        cases fieldValues s v path with
        | error e => rfl
        | ok fields =>
          rw [ok_bind, ok_bind, pure_bind, verdict_sumSizes, List.foldlM_map]
          simp only [measure_field]
          exact foldlM_zipIdx_fst (fun _ f => verdict (size (structSize d (maxDepth -
            (path.depth + 1))) f.1.layout f.2 (path.field f.1.name))) fields ()
  | fixed | nullable | string | fixedBytes | dynamicBytes =>
    dsimp only
    rw [hplain trivial]
    cases size (fun _ _ _ => .ok 0) _ v path <;> rfl

/-! ## Writing -/

/-- What is put out for a value before its parts. -/
def head (a : Spot × Value) : Output :=
  let path := a.1.path
  match a.1.layout with
  | .fixedArray _ _ | .embedded _ => .done
  | .dynamicArray _ => Output.given (items a.2 path) fun xs => putCount path xs.length
  | .map _ _ => Output.given (entries a.2 path) fun es => putCount path es.length
  | l => write (fun _ _ _ => .done) l a.2 path

/-- Writes what stands at a spot. -/
def store (d : DocumentLayout) (a : Spot × Value) (w : Writer) : Except WireError Writer :=
  (write (writeStruct d (maxDepth - a.1.path.depth)) a.1.layout a.2 a.1.path).onto w

theorem store_index (elem : Layout) (path : Path) (i : Nat) (x : Value) (w : Writer) :
    store d (⟨elem, path.index i⟩, x) w =
      (write (writeStruct d (maxDepth - path.depth)) elem x (path.index i)).onto w := by
  unfold store
  rw [Path.depth_index]

theorem store_field (f : FieldLayout) (path : Path) (x : Value) (w : Writer) :
    store d (⟨f.layout, path.field f.name⟩, x) w =
      (write (writeStruct d (maxDepth - (path.depth + 1))) f.layout x
        (path.field f.name)).onto w := by
  unfold store
  rw [Path.depth_field]

theorem store_items (elem : Layout) (path : Path) (xs : List Value) (w : Writer) :
    (Output.forEach (fun i x =>
        write (writeStruct d (maxDepth - path.depth)) elem x (path.index i)) xs).onto w =
      (xs.zipIdx.map fun x => ((⟨elem, path.index x.2⟩ : Spot), x.1)).foldlM
        (fun w b => store d b w) w := by
  rw [Output.onto_forEach, List.foldlM_map]
  simp only [store_index]

/-- Nothing is put out where something fails that has to be found out before. -/
def Output.HaltsWith {α : Type} (out : Output) (x : Except WireError α) : Prop :=
  ∀ e, x = .error e → out = .fail e

theorem Output.haltsWith_pure {α : Type} (out : Output) (a : α) : out.HaltsWith (pure a) :=
  fun _ h => by cases h

theorem Output.haltsWith_given {α β : Type} {x : Except WireError α} {f : α → Except WireError β}
    {k : α → Output} (h : ∀ a, (k a).HaltsWith (f a)) : (given x k).HaltsWith (x >>= f) := by
  intro e he
  cases x with
  | error e' =>
    cases he
    rfl
  | ok a => exact h a e he

open Output in
/-- Nothing is put out for a value without parts that has no size. -/
theorem haltsWith_size {l : Layout} (hl : l.Plain) (f : OnStruct (Except WireError Nat))
    (g : OnStruct Output) (v : Value) (path : Path) :
    (write g l v path).HaltsWith (size f l v path) := by
  cases l with
  | fixedArray | dynamicArray | map | embedded => cases hl
  | fixed scalar => exact haltsWith_given fun bs => haltsWith_pure _ _
  | nullable scalar =>
    cases v with
    | null => exact haltsWith_pure _ _
    | _ => exact haltsWith_given fun bs => haltsWith_pure _ _
  | string => exact haltsWith_given fun bs => haltsWith_given fun n => haltsWith_pure _ _
  | fixedBytes len => exact haltsWith_given fun bs => haltsWith_given fun _ => haltsWith_pure _ _
  | dynamicBytes => exact haltsWith_given fun bs => haltsWith_given fun n => haltsWith_pure _ _

theorem write_of_plain {l : Layout} (hl : l.Plain) (f g : OnStruct Output) (v : Value)
    (path : Path) : write f l v path = write g l v path := by
  cases l with
  | fixedArray | dynamicArray | map | embedded => cases hl
  | _ => rfl

/-- Writing looks at the spot itself, puts out what comes before the parts, and then writes them. -/
theorem store_eq (a : Spot × Value) (w : Writer) :
    store d a w = (parts d a >>= fun ps => (head a).onto w >>= fun w => .ok (ps, w)) >>= fun r =>
      r.1.foldlM (fun w b => store d b w) r.2 := by
  obtain ⟨⟨l, path⟩, v⟩ := a
  have hplain (hl : l.Plain) := write_of_plain hl (writeStruct d (maxDepth - path.depth))
    (fun _ _ _ => .done) v path
  have hhalts (hl : l.Plain) := haltsWith_size hl (fun _ _ _ => .ok 0) (fun _ _ _ => .done) v path
  unfold parts head
  rw [store]
  cases l with
  | fixedArray len elem =>
    rw [write]
    dsimp only
    rw [Output.onto_given]
    cases items v path with
    | error e => rfl
    | ok xs =>
      rw [ok_bind, ok_bind, Output.onto_given]
      cases exactLen len xs.length path with
      | error e => rfl
      | ok => exact store_items elem path xs w
  | dynamicArray elem =>
    rw [write]
    dsimp only
    rw [Output.onto_given]
    cases items v path with
    | error e => rfl
    | ok xs =>
      rw [ok_bind, ok_bind, Output.onto_given]
      cases hn : count xs.length path with
      | error e => rfl
      | ok n =>
        obtain ⟨-, rfl⟩ := count_eq_ok.1 hn
        rw [ok_bind, ok_bind, pure_bind, Output.onto_andThen, Output.onto_given, ok_bind]
        cases (putCount path xs.length).onto w with
        | error e => rfl
        | ok next => exact store_items elem path xs next
  | map key value =>
    rw [write]
    dsimp only
    rw [Output.onto_given]
    cases entries v path with
    | error e => rfl
    | ok es =>
      rw [ok_bind, ok_bind, Output.onto_given]
      cases hn : count es.length path with
      | error e => rfl
      | ok n =>
        obtain ⟨-, rfl⟩ := count_eq_ok.1 hn
        rw [ok_bind, ok_bind, pure_bind, Output.onto_andThen, Output.onto_given, ok_bind]
        cases (putCount path es.length).onto w with
        | error e => rfl
        | ok next =>
          rw [ok_bind, ok_bind, ok_bind, Output.onto_forEach, foldlM_flatMap_pair]
          simp only [store_index, Output.onto_andThen]
  | embedded type =>
    rw [write]
    dsimp only
    rcases room_cases path.depth with ⟨hdeep, hroom⟩ | ⟨hdeep, hroom⟩
    · rw [if_pos hdeep, hroom]
      rfl
    · rw [if_neg hdeep, hroom, writeStruct, Output.onto_given]
      cases lookup d type with
      | error e => rfl
      | ok s =>
        rw [ok_bind, ok_bind, Output.onto_given]
        cases fieldValues s v path with
        | error e => rfl
        | ok fields =>
          rw [ok_bind, ok_bind, pure_bind, Output.onto_forEach, Output.onto_done, ok_bind, ok_bind,
            List.foldlM_map]
          simp only [store_field]
          exact foldlM_zipIdx_fst (fun w f => (write (writeStruct d (maxDepth -
            (path.depth + 1))) f.1.layout f.2 (path.field f.1.name)).onto w) fields w
  | fixed | nullable | string | fixedBytes | dynamicBytes =>
    have hhalt := hhalts trivial
    dsimp only
    rw [hplain trivial]
    cases hs : size (fun _ _ _ => .ok 0) _ v path with
    | error e =>
      rw [hhalt e hs]
      rfl
    | ok n =>
      cases (write (fun _ _ _ => Output.done) _ v path).onto w <;> rfl

/-! ## Reading -/

/-- The parts of a spot from which a value is read, and the place behind what is read for the spot
itself. -/
def announced (d : DocumentLayout) (widths : MinWidths) (a : Spot) (input : Input) :
    Except WireError (List Spot × Input) :=
  let path := a.path
  match a.layout with
  | .fixedArray len elem => .ok ((List.range len.toNat).map fun i => ⟨elem, path.index i⟩, input)
  | .dynamicArray elem => do
    let (n, input) ← readElementCount (elem.minWidth widths.get) path input
    return ((List.range n).map fun i => ⟨elem, path.index i⟩, input)
  | .map key value => do
    let width := Width.saturatingAdd (key.minWidth widths.get) (value.minWidth widths.get)
    let (n, input) ← readElementCount width path input
    return ((List.range n).flatMap fun i => [⟨key, path.index i⟩, ⟨value, path.index i⟩], input)
  | .embedded type =>
    if maxDepth ≤ path.depth then .error (.depthExceeded path)
    else do
      let s ← lookup d type
      return (s.fields.map fun f => ⟨f.layout, path.field f.name⟩, input)
  | l => do
    let (_, input) ← read widths (fun _ _ input => .ok (.null, input)) l path input
    return ([], input)

variable {widths : MinWidths}

/-- The parts that are read stand at spots in the spot. -/
theorem holds_of_announced {a : Spot} {input : Input} {r : List Spot × Input}
    (h : announced d widths a input = .ok r) : ∀ b ∈ r.1, a.Holds d b := by
  obtain ⟨l, path⟩ := a
  unfold announced at h
  cases l with
  | fixedArray len elem =>
    cases h
    intro b hb
    obtain ⟨i, -, rfl⟩ := List.mem_map.1 hb
    exact .fixedItem i
  | dynamicArray elem =>
    obtain ⟨n, -, h⟩ := bind_eq_ok.1 h
    cases h
    intro b hb
    obtain ⟨i, -, rfl⟩ := List.mem_map.1 hb
    exact .item i
  | map key value =>
    obtain ⟨n, -, h⟩ := bind_eq_ok.1 h
    cases h
    intro b hb
    obtain ⟨i, -, hb⟩ := List.mem_flatMap.1 hb
    rcases List.mem_pair.1 hb with rfl | rfl
    · exact .key i
    · exact .value i
  | embedded type =>
    dsimp only at h
    split at h
    · cases h
    next hdeep =>
      obtain ⟨s, hs, h⟩ := bind_eq_ok.1 h
      cases h
      intro b hb
      obtain ⟨f, hf, rfl⟩ := List.mem_map.1 hb
      exact .field (Nat.not_le.1 hdeep) (lookup_eq_ok.1 hs) hf
  | fixed | nullable | string | fixedBytes | dynamicBytes =>
    obtain ⟨x, -, h⟩ := bind_eq_ok.1 h
    cases h
    exact nofun

/-- Reads what stands at a spot, up to the place behind it. -/
def pass (d : DocumentLayout) (widths : MinWidths) (a : Spot) (input : Input) :
    Except WireError Input :=
  read widths (readStruct d widths (maxDepth - a.path.depth)) a.layout a.path input >>= fun r =>
    .ok r.2

theorem pass_index (elem : Layout) (path : Path) (i : Nat) (input : Input) :
    pass d widths ⟨elem, path.index i⟩ input =
      read widths (readStruct d widths (maxDepth - path.depth)) elem (path.index i) input >>=
        fun r => .ok r.2 := by
  unfold pass
  rw [Path.depth_index]

theorem pass_field (f : FieldLayout) (path : Path) (input : Input) :
    pass d widths ⟨f.layout, path.field f.name⟩ input =
      read widths (readStruct d widths (maxDepth - (path.depth + 1))) f.layout (path.field f.name)
        input >>= fun r => .ok r.2 := by
  unfold pass
  rw [Path.depth_field]

theorem pass_items (elem : Layout) (path : Path) (n : Nat) (input : Input) :
    (readMany (fun i => read widths (readStruct d widths (maxDepth - path.depth)) elem
        (path.index i)) n 0 [] input >>= fun r => .ok r.2) =
      ((List.range n).map fun i => (⟨elem, path.index i⟩ : Spot)).foldlM
        (fun input b => pass d widths b input) input := by
  rw [readMany_after, List.range_eq_range', List.foldlM_map]
  simp only [pass_index]

theorem read_of_plain (widths : MinWidths) {l : Layout} (hl : l.Plain) (f g : ReadStruct)
    (path : Path) (input : Input) :
    read widths f l path input = read widths g l path input := by
  cases l with
  | fixedArray | dynamicArray | map | embedded => cases hl
  | _ => rfl

/-- Reading looks at the spot itself and then reads the parts. -/
theorem pass_eq (a : Spot) (input : Input) :
    pass d widths a input = announced d widths a input >>= fun r =>
      r.1.foldlM (fun input b => pass d widths b input) r.2 := by
  obtain ⟨l, path⟩ := a
  have hplain (hl : l.Plain) := read_of_plain widths hl
    (readStruct d widths (maxDepth - path.depth)) (fun _ _ input => .ok (.null, input)) path input
  unfold announced
  rw [pass]
  cases l with
  | fixedArray len elem =>
    rw [read]
    dsimp only
    rw [ok_bind, ← pass_items, bind_assoc]
    rfl
  | dynamicArray elem =>
    rw [read]
    dsimp only
    cases readElementCount (elem.minWidth widths.get) path input with
    | error e => rfl
    | ok r =>
      obtain ⟨n, after⟩ := r
      rw [ok_bind, ok_bind]
      dsimp only
      rw [pure_bind, ← pass_items, bind_assoc]
      rfl
  | map key value =>
    rw [read]
    dsimp only
    cases readElementCount (Width.saturatingAdd (key.minWidth widths.get)
      (value.minWidth widths.get)) path input with
    | error e => rfl
    | ok r =>
      obtain ⟨n, after⟩ := r
      rw [ok_bind, ok_bind]
      dsimp only
      rw [pure_bind, bind_assoc, foldlM_flatMap_pair]
      refine (readMany_after _ n 0 [] after).trans ?_
      rw [← List.range_eq_range']
      simp only [pass_index]
      congr 1
      funext input i
      cases read widths (readStruct d widths (maxDepth - path.depth)) key (path.index i) input with
      | error e => rfl
      | ok r =>
        obtain ⟨k, rest⟩ := r
        rw [ok_bind, ok_bind, ok_bind, bind_assoc]
        rfl
  | embedded type =>
    rw [read]
    dsimp only
    rcases room_cases path.depth with ⟨hdeep, hroom⟩ | ⟨hdeep, hroom⟩
    · rw [if_pos hdeep, hroom]
      rfl
    · rw [if_neg hdeep, hroom, readStruct]
      unfold lookup
      cases d.get? type with
      | none => rfl
      | some s =>
        dsimp only
        rw [ok_bind, pure_bind, bind_assoc, List.foldlM_map]
        refine (readFields_after _ s.fields input).trans ?_
        simp only [pass_field]
  | fixed | nullable | string | fixedBytes | dynamicBytes =>
    dsimp only
    rw [hplain trivial]
    cases read widths (fun _ _ input => .ok (.null, input)) _ path input <;> rfl

/-! ## The three tours -/

/-- The tour that measures a value. -/
def sizeTour (d : DocumentLayout) : Tour d (Spot × Value) Unit where
  spot := Prod.fst
  own a _ := parts d a >>= fun ps => .ok (ps, ())
  run a _ := measure d a
  run_eq a _ := by
    rw [measure_eq, bind_assoc]
    rfl
  holds h b hb := by
    obtain ⟨ps, hps, h⟩ := bind_eq_ok.1 h
    cases h
    exact holds_of_parts hps b hb

/-- The tour that writes a value. -/
def writeTour (d : DocumentLayout) : Tour d (Spot × Value) Writer where
  spot := Prod.fst
  own a w := parts d a >>= fun ps => (head a).onto w >>= fun w => .ok (ps, w)
  run := store d
  run_eq := store_eq
  holds h b hb := by
    obtain ⟨ps, hps, h⟩ := bind_eq_ok.1 h
    obtain ⟨w, -, h⟩ := bind_eq_ok.1 h
    cases h
    exact holds_of_parts hps b hb

/-- The tour that reads a value. -/
def readTour (d : DocumentLayout) (widths : MinWidths) : Tour d Spot Input where
  spot := id
  own := announced d widths
  run := pass d widths
  run_eq := pass_eq
  holds := holds_of_announced

end Wire

end WireSchema
