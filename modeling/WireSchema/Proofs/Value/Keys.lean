-- Maps with one entry for each key. A language keeps its maps so, where the wire may repeat a
-- key: then the last value stands, in the place of the first. A value whose maps repeat no key
-- stays as it is.
import WireSchema.Value.Basic

namespace WireSchema

/-! ## Entries -/

/-- Puts an entry into a map: the value of a key that is there is replaced, any other goes to
the end. -/
def insertEntry (same : Value → Value → Bool) (k v : Value) :
    List (Value × Value) → List (Value × Value)
  | [] => [(k, v)]
  | e :: es => if same e.1 k then (e.1, v) :: es else e :: insertEntry same k v es

/-- A map with the entries put in one after the other. -/
def insertAll (same : Value → Value → Bool) (es : List (Value × Value)) : List (Value × Value) :=
  es.foldl (fun found e => insertEntry same e.1 e.2 found) []

theorem insertAll_append (same : Value → Value → Bool) (es : List (Value × Value))
    (e : Value × Value) :
    insertAll same (es ++ [e]) = insertEntry same e.1 e.2 (insertAll same es) := by
  simp [insertAll]

theorem insertEntry_of_new {same : Value → Value → Bool} {k v : Value}
    {es : List (Value × Value)} (h : ∀ e ∈ es, same e.1 k = false) :
    insertEntry same k v es = es ++ [(k, v)] := by
  induction es with
  | nil => rfl
  | cons e es ih =>
    have he := h e (List.mem_cons_self ..)
    rw [insertEntry, he, ih fun e' he' => h e' (List.mem_cons_of_mem e he')]
    rfl

/-- Entries whose keys all differ stay as they are. -/
theorem insertAll_of_pairwise {same : Value → Value → Bool} {es : List (Value × Value)}
    (h : es.Pairwise fun a b => same a.1 b.1 = false) : insertAll same es = es := by
  -- The entries put in so far and those to come together have keys that differ.
  suffices hall : ∀ later found : List (Value × Value),
      (found ++ later).Pairwise (fun a b => same a.1 b.1 = false) →
      later.foldl (fun found e => insertEntry same e.1 e.2 found) found = found ++ later from
    hall es [] h
  intro later
  induction later with
  | nil => exact fun found _ => (List.append_nil found).symm
  | cons e later ih =>
    intro found hdiffer
    have hnew : ∀ a ∈ found, same a.1 e.1 = false := fun a ha =>
      (List.pairwise_append.1 hdiffer).2.2 a ha e (List.mem_cons_self ..)
    rw [List.foldl_cons, insertEntry_of_new hnew, ih (found ++ [e]) (by simpa using hdiffer)]
    simp

/-! ## Values -/

namespace Value

mutual

/-- A value whose maps have one entry for each key. -/
def collapse (same : Value → Value → Bool) (v : Value) : Value :=
  match v with
  | array xs => array (collapseItems same xs)
  | map es => map (insertAll same (collapseEntries same es))
  | struct fields => struct (collapseFields same fields)
  | v => v

/-- Elements whose maps have one entry for each key. -/
def collapseItems (same : Value → Value → Bool) (xs : List Value) : List Value :=
  match xs with
  | [] => []
  | x :: xs => x.collapse same :: collapseItems same xs

/-- Entries whose maps have one entry for each key. -/
def collapseEntries (same : Value → Value → Bool) (es : List (Value × Value)) :
    List (Value × Value) :=
  match es with
  | [] => []
  | (k, v) :: es => (k.collapse same, v.collapse same) :: collapseEntries same es

/-- Fields whose maps have one entry for each key. -/
def collapseFields (same : Value → Value → Bool) (fields : List (String × Value)) :
    List (String × Value) :=
  match fields with
  | [] => []
  | (name, v) :: fields => (name, v.collapse same) :: collapseFields same fields

end

mutual

/-- No map in a value repeats a key. -/
def KeysDiffer (same : Value → Value → Bool) (v : Value) : Prop :=
  match v with
  | array xs => ItemsKeysDiffer same xs
  | map es => EntriesKeysDiffer same es ∧ es.Pairwise fun a b => same a.1 b.1 = false
  | struct fields => FieldsKeysDiffer same fields
  | _ => True

/-- No map in elements repeats a key. -/
def ItemsKeysDiffer (same : Value → Value → Bool) (xs : List Value) : Prop :=
  match xs with
  | [] => True
  | x :: xs => x.KeysDiffer same ∧ ItemsKeysDiffer same xs

/-- No map inside entries repeats a key. -/
def EntriesKeysDiffer (same : Value → Value → Bool) (es : List (Value × Value)) : Prop :=
  match es with
  | [] => True
  | (k, v) :: es => k.KeysDiffer same ∧ v.KeysDiffer same ∧ EntriesKeysDiffer same es

/-- No map in fields repeats a key. -/
def FieldsKeysDiffer (same : Value → Value → Bool) (fields : List (String × Value)) : Prop :=
  match fields with
  | [] => True
  | (_, v) :: fields => v.KeysDiffer same ∧ FieldsKeysDiffer same fields

end

section Collapse

variable {same : Value → Value → Bool}

theorem collapseItems_eq (xs : List Value) :
    collapseItems same xs = xs.map (·.collapse same) := by
  induction xs with
  | nil => rfl
  | cons x xs ih => rw [collapseItems, ih, List.map_cons]

theorem collapseEntries_eq (es : List (Value × Value)) :
    collapseEntries same es = es.map fun e => (e.1.collapse same, e.2.collapse same) := by
  induction es with
  | nil => rfl
  | cons e es ih => rw [collapseEntries, ih, List.map_cons]

theorem collapseFields_eq (fields : List (String × Value)) :
    collapseFields same fields = fields.map fun f => (f.1, f.2.collapse same) := by
  induction fields with
  | nil => rfl
  | cons f fields ih => rw [collapseFields, ih, List.map_cons]

mutual

/-- A value whose maps repeat no key stays as it is. -/
theorem collapse_of_keysDiffer : (v : Value) → v.KeysDiffer same → v.collapse same = v
  | array xs, h => by rw [collapse, collapseItems_of_keysDiffer xs h]
  | map es, h => by
    rw [collapse, collapseEntries_of_keysDiffer es h.1, insertAll_of_pairwise h.2]
  | struct fields, h => by rw [collapse, collapseFields_of_keysDiffer fields h]
  | null, _ | bool _, _ | int _, _ | uint _, _ | float _, _ | string _, _ | bytes _, _ => rfl

theorem collapseItems_of_keysDiffer :
    (xs : List Value) → ItemsKeysDiffer same xs → collapseItems same xs = xs
  | [], _ => rfl
  | x :: xs, h => by
    rw [collapseItems, collapse_of_keysDiffer x h.1, collapseItems_of_keysDiffer xs h.2]

theorem collapseEntries_of_keysDiffer :
    (es : List (Value × Value)) → EntriesKeysDiffer same es → collapseEntries same es = es
  | [], _ => rfl
  | (k, v) :: es, h => by
    rw [collapseEntries, collapse_of_keysDiffer k h.1, collapse_of_keysDiffer v h.2.1,
      collapseEntries_of_keysDiffer es h.2.2]

theorem collapseFields_of_keysDiffer :
    (fields : List (String × Value)) → FieldsKeysDiffer same fields →
      collapseFields same fields = fields
  | [], _ => rfl
  | (name, v) :: fields, h => by
    rw [collapseFields, collapse_of_keysDiffer v h.1, collapseFields_of_keysDiffer fields h.2]

end

end Collapse

end Value

end WireSchema
