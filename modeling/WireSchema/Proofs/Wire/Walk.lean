-- The walks that measure, write and read a value, step by step: there is one path and one depth,
-- which change where a part or a struct is entered and change back where it is left. A walk follows
-- a function that is told the path and the depth when it does what the function says and then has
-- both as they were; each kind of step keeps this.
import WireSchema.Proofs.Wire.Partial

namespace WireSchema

/-- The way to what the last step went into. -/
def Path.pop (p : Path) : Path := ⟨p.root, p.segments.dropLast⟩

theorem Path.pop_push (p : Path) (s : Segment) : (p.push s).pop = p := by
  unfold push pop
  rw [List.dropLast_concat]

namespace Wire

open Outcome

/-! ## Steps of a walk -/

/-- A walk: the way from the root to where it is, how many structs it is in, and what it works on
there. -/
structure Walk (σ : Type) where
  path : Path
  depth : Nat
  site : σ

/-- A step of a walk. What it has changed stays changed when it fails. -/
abbrev Walking (σ : Type) := ExceptT WireError (StateM (Walk σ))

namespace Walk

variable {σ α β : Type}

/-- The walk before its first step. -/
def start (root : String) (site : σ) : Walk σ := ⟨.start root, 0, site⟩

/-- Finds something out at the place of the walk. -/
def here (x : Path → Except WireError α) : Walking σ α := fun w => (x w.path, w)

/-- Works at the place of the walk. -/
def work (f : Path → σ → Except WireError (α × σ)) : Walking σ α := fun w =>
  match f w.path w.site with
  | .ok (a, site) => (.ok a, { w with site })
  | .error e => (.error e, w)

/-- Goes into a part and comes back, also when that failed. -/
def inside (s : Segment) (m : Walking σ α) : Walking σ α := fun w =>
  let (result, w) := m { w with path := w.path.push s }
  (result, { w with path := w.path.pop })

/-- Enters a struct, if there are not too many around. -/
def enter (d : DocumentLayout) (type : String) : Walking σ StructLayout := fun w =>
  if maxDepth ≤ w.depth then (.error (.depthExceeded w.path), w)
  else (lookup d type, { w with depth := w.depth + 1 })

/-- Leaves a struct. -/
def leave : Walking σ Unit := fun w => (.ok (), { w with depth := w.depth - 1 })

/-- Does something in a struct. Where that fails the struct is not left. -/
def within (d : DocumentLayout) (type : String) (body : StructLayout → Walking σ α) :
    Walking σ α := do
  let s ← enter d type
  let a ← body s
  leave
  return a

/-- The sum of what numbered parts give. -/
def total (size : Nat → α → Walking σ Nat) (xs : List α) : Walking σ Nat :=
  xs.zipIdx.foldlM (fun total x => return total + (← size x.2 x.1)) 0

/-- Goes through numbered parts. -/
def each (write : Nat → α → Walking σ Unit) (xs : List α) : Walking σ Unit :=
  xs.zipIdx.forM fun x => write x.2 x.1

/-- Numbered parts one after the other. `seen` holds those before, the last first. -/
def many (read : Nat → Walking σ α) : Nat → Nat → List α → Walking σ (List α)
  | 0, _, seen => return seen.reverse
  | n + 1, i, seen => do
    let x ← read i
    many read n (i + 1) (x :: seen)

/-- Named parts one after the other. -/
def named (read : FieldLayout → Walking σ Value) :
    List FieldLayout → Walking σ (List (String × Value))
  | [] => return []
  | f :: fs => do
    let v ← read f
    let vs ← named read fs
    return (f.name, v) :: vs

/-! ## The three walks -/

/-- Measures a value. -/
def size (onStruct : String → Value → Walking Unit Nat) : Layout → Value → Walking Unit Nat
  | .fixed scalar, v => do
    let _ ← here (scalarBytes scalar v)
    return scalar.width
  | .nullable scalar, v =>
    match v with
    | .null => return flagWidth
    | v => do
      let _ ← here (scalarBytes scalar v)
      return flagWidth + scalar.width
  | .string, v => do
    let bs ← here (text v)
    let n ← here (count bs.length)
    return countWidth + n
  | .fixedBytes len, v => do
    let bs ← here (block v)
    here (exactLen len bs.length)
    return bs.length
  | .dynamicBytes, v => do
    let bs ← here (block v)
    let n ← here (count bs.length)
    return countWidth + n
  | .fixedArray len elem, v => do
    let xs ← here (items v)
    here (exactLen len xs.length)
    total (fun i x => inside (.index i) (size onStruct elem x)) xs
  | .dynamicArray elem, v => do
    let xs ← here (items v)
    let _ ← here (count xs.length)
    return countWidth + (← total (fun i x => inside (.index i) (size onStruct elem x)) xs)
  | .map key value, v => do
    let es ← here (entries v)
    let _ ← here (count es.length)
    return countWidth + (← total (fun i e => inside (.index i) do
      return (← size onStruct key e.1) + (← size onStruct value e.2)) es)
  | .embedded type, v => onStruct type v

/-- Measures a value of a struct. The number bounds how many structs are entered one in the other;
from the greatest depth on none is entered anyway. -/
def sizeStruct (d : DocumentLayout) : Nat → String → Value → Walking Unit Nat
  | 0, _, _ => here fun path => .error (.depthExceeded path)
  | rounds + 1, type, v => within d type fun s => do
    let fields ← here (fieldValues s v)
    total (fun _ f => inside (.field f.1.name) (size (sizeStruct d rounds) f.1.layout f.2)) fields

/-- Writes a block. -/
def put (bs : List UInt8) : Walking Writer Unit :=
  work fun path w => return ((), ← w.put ⟨path, bs⟩)

/-- Writes a block behind its length. -/
def putCounted (bs : List UInt8) : Walking Writer Unit := do
  let n ← here (count bs.length)
  put (Bytes.little countWidth n)
  put bs

/-- Writes a value. -/
def write (onStruct : String → Value → Walking Writer Unit) : Layout → Value → Walking Writer Unit
  | .fixed scalar, v => do
    let bs ← here (scalarBytes scalar v)
    put bs
  | .nullable scalar, v =>
    match v with
    | .null => put [0]
    | v => do
      let bs ← here (scalarBytes scalar v)
      put [1]
      put bs
  | .string, v => do
    let bs ← here (text v)
    putCounted bs
  | .fixedBytes len, v => do
    let bs ← here (block v)
    here (exactLen len bs.length)
    put bs
  | .dynamicBytes, v => do
    let bs ← here (block v)
    putCounted bs
  | .fixedArray len elem, v => do
    let xs ← here (items v)
    here (exactLen len xs.length)
    each (fun i x => inside (.index i) (write onStruct elem x)) xs
  | .dynamicArray elem, v => do
    let xs ← here (items v)
    let n ← here (count xs.length)
    put (Bytes.little countWidth n)
    each (fun i x => inside (.index i) (write onStruct elem x)) xs
  | .map key value, v => do
    let es ← here (entries v)
    let n ← here (count es.length)
    put (Bytes.little countWidth n)
    each (fun i e => inside (.index i) do
      write onStruct key e.1
      write onStruct value e.2) es
  | .embedded type, v => onStruct type v

/-- Writes a value of a struct. -/
def writeStruct (d : DocumentLayout) : Nat → String → Value → Walking Writer Unit
  | 0, _, _ => here fun path => .error (.depthExceeded path)
  | rounds + 1, type, v => within d type fun s => do
    let fields ← here (fieldValues s v)
    each (fun _ f => inside (.field f.1.name) (write (writeStruct d rounds) f.1.layout f.2)) fields

/-- Reads a value. -/
def read (widths : MinWidths) (onStruct : String → Walking Input Value) :
    Layout → Walking Input Value
  | .fixed scalar => work (readScalar scalar)
  | .nullable scalar => do
    let flag ← work fun path input => input.take flagWidth path
    if Bytes.ofLittle flag = 0 then return .null
    else work (readScalar scalar)
  | .string => work fun path input => do
    let (bs, after) ← readCounted path input
    match Text.ofBytes? bs with
    | some s => return (.string s, after)
    | none => throw (.invalidUtf8 path input.offset)
  | .fixedBytes len => do
    let bs ← work fun path input => input.take len.toNat path
    return .bytes bs
  | .dynamicBytes => do
    let bs ← work readCounted
    return .bytes bs
  | .fixedArray len elem => do
    let xs ← many (fun i => inside (.index i) (read widths onStruct elem)) len.toNat 0 []
    return .array xs
  | .dynamicArray elem => do
    let n ← work (readElementCount (elem.minWidth widths.get))
    let xs ← many (fun i => inside (.index i) (read widths onStruct elem)) n 0 []
    return .array xs
  | .map key value => do
    let width := Width.saturatingAdd (key.minWidth widths.get) (value.minWidth widths.get)
    let n ← work (readElementCount width)
    let es ← many (fun i => inside (.index i) do
      let k ← read widths onStruct key
      let v ← read widths onStruct value
      return (k, v)) n 0 []
    return .map es
  | .embedded type => onStruct type

/-- Reads a value of a struct. -/
def readStruct (d : DocumentLayout) (widths : MinWidths) : Nat → String → Walking Input Value
  | 0, _ => here fun path => .error (.depthExceeded path)
  | rounds + 1, type => within d type fun s => do
    let fields ← named (fun f =>
      inside (.field f.name) (read widths (readStruct d widths rounds) f.layout)) s.fields
    return .struct fields

end Walk

/-! ## Walks that come back -/

open Walk

section Follows

variable {σ α β : Type}

/-- A walk does what is told to be done at its path and its depth, and then it has them again. -/
def Follows (m : Walking σ α) (told : Path → Nat → σ → Except WireError (α × σ)) : Prop :=
  ∀ w : Walk σ, match told w.path w.depth w.site with
    | .ok (a, site) => m w = (.ok a, { w with site })
    | .error e => (m w).1 = .error e

variable {m : Walking σ α} {told : Path → Nat → σ → Except WireError (α × σ)}
  {k : α → Walking σ β} {next : α → Path → Nat → σ → Except WireError (β × σ)}

theorem Follows.of_ok {a : α} {site : σ} (h : Follows m told) {w : Walk σ}
    (htold : told w.path w.depth w.site = .ok (a, site)) : m w = (.ok a, { w with site }) := by
  have hw := h w
  rw [htold] at hw
  exact hw

theorem Follows.of_error {e : WireError} (h : Follows m told) {w : Walk σ}
    (htold : told w.path w.depth w.site = .error e) : (m w).1 = .error e := by
  have hw := h w
  rw [htold] at hw
  exact hw

/-- A walk that succeeds has its path and its depth again. -/
theorem Follows.comes_back (h : Follows m told) {w after : Walk σ} {a : α}
    (hw : m w = (.ok a, after)) : after.path = w.path ∧ after.depth = w.depth := by
  cases htold : told w.path w.depth w.site with
  | error e =>
    have herror := h.of_error htold
    rw [hw] at herror
    cases herror
  | ok r =>
    have hok := h.of_ok htold
    rw [hw] at hok
    cases hok
    exact ⟨rfl, rfl⟩

theorem bind_apply (w : Walk σ) : (m >>= k) w =
    match m w with
    | (.ok a, w) => k a w
    | (.error e, w) => (.error e, w) := by
  change (match m w with | (r, w) => ExceptT.bindCont k r w) = _
  rcases m w with ⟨_ | _, _⟩ <;> rfl

theorem Follows.congr {other : Path → Nat → σ → Except WireError (α × σ)} (h : Follows m told)
    (heq : ∀ path depth site, other path depth site = told path depth site) : Follows m other := by
  intro w
  rw [heq]
  exact h w

theorem follows_pure (a : α) :
    Follows (pure a : Walking σ α) fun _ _ site => .ok (a, site) := fun _ => rfl

theorem follows_work (f : Path → σ → Except WireError (α × σ)) :
    Follows (work f) fun path _ site => f path site := by
  intro w
  dsimp only
  unfold work
  cases f w.path w.site with
  | error e => rfl
  | ok r => rfl

theorem Follows.bind (h : Follows m told) (hk : ∀ a, Follows (k a) (next a)) :
    Follows (m >>= k) fun path depth site =>
      told path depth site >>= fun r => next r.1 path depth r.2 := by
  intro w
  have hm := h w
  dsimp only
  rw [bind_apply]
  cases htold : told w.path w.depth w.site with
  | error e =>
    rw [htold] at hm
    rcases hw : m w with ⟨result, after⟩
    rw [hw] at hm
    cases hm
    rfl
  | ok r =>
    rw [htold] at hm
    rw [hm, ok_bind]
    exact hk r.1 { w with site := r.2 }

/-- A walk through a part is back at the place that it came from. -/
theorem Follows.inside (s : Segment) (h : Follows m told) :
    Follows (inside s m) fun path depth site => told (path.push s) depth site := by
  intro w
  have hm := h { w with path := w.path.push s }
  dsimp only at hm ⊢
  unfold Walk.inside
  cases htold : told (w.path.push s) w.depth w.site with
  | error e =>
    rw [htold] at hm
    exact hm
  | ok r =>
    rw [htold] at hm
    dsimp only at hm ⊢
    rw [hm]
    dsimp only
    rw [Path.pop_push]

/-- A walk through a struct has left it. -/
theorem Follows.within (d : DocumentLayout) (type : String) {body : StructLayout → Walking σ α}
    {told : StructLayout → Path → Nat → σ → Except WireError (α × σ)}
    (h : ∀ s, Follows (body s) (told s)) :
    Follows (within d type body) fun path depth site =>
      if maxDepth ≤ depth then .error (.depthExceeded path)
      else lookup d type >>= fun s => told s path (depth + 1) site := by
  intro w
  dsimp only
  unfold Walk.within
  rw [bind_apply]
  unfold enter
  by_cases hdeep : maxDepth ≤ w.depth
  · rw [if_pos hdeep, if_pos hdeep]
  · rw [if_neg hdeep, if_neg hdeep]
    cases lookup d type with
    | error e => rfl
    | ok s =>
      have hbody := h s { w with depth := w.depth + 1 }
      rw [ok_bind]
      dsimp only at hbody ⊢
      rw [bind_apply]
      cases htold : told s w.path (w.depth + 1) w.site with
      | error e =>
        rw [htold] at hbody
        rcases hw : body s { w with depth := w.depth + 1 } with ⟨result, after⟩
        rw [hw] at hbody
        cases hbody
        rfl
      | ok r =>
        rw [htold] at hbody
        rw [hbody]
        rfl

end Follows

end Wire

end WireSchema
