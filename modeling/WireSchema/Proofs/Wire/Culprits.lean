-- What errors tell. An error of measuring names the way to a value that it is true of: the value is
-- of the kind, of the length or out of the range that it says, or it lacks or has the field. An
-- error about the depth is one about a struct with the most structs around it that there may be,
-- and whatever came before such a struct, it is reported where it is reached.
import WireSchema.Proofs.Wire.Agreement
import WireSchema.Proofs.Wire.Tours

namespace WireSchema

open Outcome

/-! ## What an error says -/

namespace Value

/-- Where segments lead from a value. A number leads to an element, or to the key or the value of
an entry. -/
inductive Leads (v : Value) : List Segment → Value → Prop
  | here : Leads v [] v
  | field {way : List Segment} {x y : Value} {name : String} :
      Leads v way x → x.field? name = some y → Leads v (way ++ [.field name]) y
  | item {way : List Segment} {xs : List Value} {i : Nat} {y : Value} :
      Leads v way (.array xs) → xs[i]? = some y → Leads v (way ++ [.index i]) y
  | key {way : List Segment} {es : List (Value × Value)} {i : Nat} {e : Value × Value} :
      Leads v way (.map es) → es[i]? = some e → Leads v (way ++ [.index i]) e.1
  | value {way : List Segment} {es : List (Value × Value)} {i : Nat} {e : Value × Value} :
      Leads v way (.map es) → es[i]? = some e → Leads v (way ++ [.index i]) e.2

/-- How many elements, entries or bytes a value has. -/
def count? : Value → Option Nat
  | array xs => some xs.length
  | map es => some es.length
  | bytes bs => some bs.length
  | string s => some (Text.bytes s).length
  | _ => none

end Value

namespace WireError

/-- The place that an error of a value tells. -/
def path? : WireError → Option Path
  | typeMismatch path _ _ | outOfRange path _ _ | lengthMismatch path _ _ | countOverflow path _
  | missingField path _ | unknownField path _ | depthExceeded path => some path
  | _ => none

/-- What an error says is true of a value at a spot. -/
def Holds (d : DocumentLayout) (a : Spot × Value) : WireError → Prop
  | typeMismatch _ _ found => a.2.kindName = found
  | outOfRange _ scalar n => Scalar.integer a.2 = .ok n ∧ scalar.bytes a.2 = .error (.range n)
  | lengthMismatch _ expected found => a.2.count? = some found ∧ found ≠ expected
  | countOverflow _ n => a.2.count? = some n ∧ UInt32.size ≤ n
  | missingField _ name => (∃ fields, a.2 = .struct fields) ∧ a.2.field? name = none ∧
      ∃ type s, a.1.layout = .embedded type ∧ d.get? type = some s ∧ ∃ f ∈ s.fields, f.name = name
  | unknownField _ name => (∃ x, a.2.field? name = some x) ∧
      ∃ type s, a.1.layout = .embedded type ∧ d.get? type = some s ∧ ∀ f ∈ s.fields, f.name ≠ name
  | unknownType type => a.1.layout = .embedded type ∧ d.get? type = none
  | depthExceeded _ => (∃ type, a.1.layout = .embedded type) ∧ maxDepth ≤ a.1.path.depth
  | _ => False

/-- The error is about the bytes of a buffer. -/
def OfBuffer : WireError → Prop
  | outOfBounds _ _ _ _ | countLimit _ _ | invalidUtf8 _ _ => True
  | _ => False

end WireError

namespace Wire

/-! ## What the parts of a value say -/

variable {d : DocumentLayout} {a : Spot × Value} {v : Value} {path : Path} {e : WireError}

/-- An error about a spot: it tells the way to the spot, if any, and what it says is true there. -/
def Blames (d : DocumentLayout) (a : Spot × Value) (e : WireError) : Prop :=
  e.Holds d a ∧ ∀ p, e.path? = some p → p = a.1.path

theorem blames_of_path (hpath : e.path? = some a.1.path) (h : e.Holds d a) : Blames d a e := by
  refine ⟨h, fun p hp => ?_⟩
  rw [hpath] at hp
  exact (Option.some.inj hp).symm

theorem blames_mismatch (expected : String) : Blames d a (mismatch a.1.path expected a.2) :=
  blames_of_path rfl rfl

theorem blames_of_items (h : items a.2 a.1.path = .error e) : Blames d a e := by
  unfold items at h
  split at h
  · cases h
  · cases h
    exact blames_mismatch _

theorem blames_of_entries (h : entries a.2 a.1.path = .error e) : Blames d a e := by
  unfold entries at h
  split at h
  · cases h
  · cases h
    exact blames_mismatch _

theorem blames_of_text (h : text a.2 a.1.path = .error e) : Blames d a e := by
  unfold text at h
  split at h
  · cases h
  · cases h
    exact blames_mismatch _

theorem blames_of_block (h : block a.2 a.1.path = .error e) : Blames d a e := by
  unfold block at h
  split at h
  · cases h
  · cases h
    exact blames_mismatch _

theorem blames_of_count {n : Nat} (hn : a.2.count? = some n) (h : count n a.1.path = .error e) :
    Blames d a e := by
  unfold count at h
  split at h
  · cases h
  next hmany =>
    cases h
    exact blames_of_path rfl ⟨hn, Nat.not_lt.1 hmany⟩

theorem blames_of_exactLen {expected : UInt32} {n : Nat} (hn : a.2.count? = some n)
    (h : exactLen expected n a.1.path = .error e) : Blames d a e := by
  unfold exactLen at h
  split at h
  · cases h
  next hother =>
    cases h
    exact blames_of_path rfl ⟨hn, hother⟩

/-- A value that has no number is refused for its shape. -/
theorem eq_shape_of_integer {fault : Scalar.Fault} (h : Scalar.integer v = .error fault) :
    fault = .shape := by
  cases v <;> cases h <;> rfl

/-- A number that a scalar has no room for is the number of the value. -/
theorem integer_of_range {scalar : Scalar} {n : Int} (h : scalar.bytes v = .error (.range n)) :
    Scalar.integer v = .ok n := by
  have hfloat : ∀ fault, Scalar.float v = .error fault → fault = .shape := by
    intro fault hfault
    cases v <;> cases hfault <;> rfl
  cases scalar with
  | bool => cases v <;> cases h
  | f32 | f64 =>
    unfold Scalar.bytes at h
    dsimp only at h
    cases hv : Scalar.float v with
    | ok x =>
      rw [hv] at h
      cases h
    | error fault =>
      rw [hv] at h
      cases h
      cases hfloat _ hv
  | i8 | i16 | i32 | i64 =>
    rcases bind_eq_error.1 h with hinteger | ⟨m, hm, hrange⟩
    · cases eq_shape_of_integer hinteger
    · split at hrange
      · cases hrange
      · cases hrange
        exact hm
  | u8 | u16 | u32 | u64 =>
    rcases bind_eq_error.1 h with hinteger | ⟨m, hm, hrange⟩
    · cases eq_shape_of_integer hinteger
    · split at hrange
      · cases hrange
      · cases hrange
        exact hm

theorem blames_of_scalarBytes {scalar : Scalar} (h : scalarBytes scalar a.2 a.1.path = .error e) :
    Blames d a e := by
  unfold scalarBytes at h
  cases hbytes : scalar.bytes a.2 with
  | ok bs =>
    rw [hbytes] at h
    cases h
  | error fault =>
    rw [hbytes] at h
    cases h
    cases fault with
    | shape => exact blames_mismatch _
    | range n => exact blames_of_path rfl ⟨integer_of_range hbytes, hbytes⟩

theorem blames_of_lookup {type : String} (hl : a.1.layout = .embedded type)
    (h : lookup d type = .error e) : Blames d a e := by
  unfold lookup at h
  split at h
  · cases h
  next hnone =>
    cases h
    exact ⟨⟨hl, hnone⟩, nofun⟩

theorem blames_of_fieldValues {type : String} {s : StructLayout} (hl : a.1.layout = .embedded type)
    (hs : d.get? type = some s) (h : fieldValues s a.2 a.1.path = .error e) : Blames d a e := by
  unfold fieldValues at h
  split at h
  next fields hv =>
    rw [hv] at h
    split at h
    next f hf =>
      cases h
      obtain ⟨x, hx⟩ := exists_lookup (List.mem_map_of_mem (List.mem_of_find?_eq_some hf))
      refine blames_of_path rfl ⟨⟨x, ?_⟩, type, s, hl, hs, fun g hg hname => ?_⟩
      · rw [hv]
        exact hx
      · have hunknown := List.find?_some hf
        simp only [Bool.not_eq_true', List.any_eq_false, beq_iff_eq] at hunknown
        exact hunknown g hg hname
    · obtain ⟨f, hf, hmissing⟩ := mapM_eq_error h
      split at hmissing
      · cases hmissing
      next hnone =>
        cases hmissing
        rw [← hv] at hnone
        exact blames_of_path rfl ⟨⟨fields, hv⟩, hnone, type, s, hl, hs, f, hf, rfl⟩
  · cases h
    exact blames_mismatch _

theorem verdict_eq_error {α : Type} {x : Except WireError α} :
    verdict x = .error e ↔ x = .error e := by
  cases x <;> simp [verdict, Except.map]

/-- An error of a value without parts is about its spot. -/
theorem blames_of_plain {f : OnStruct (Except WireError Nat)} (hl : a.1.layout.Plain)
    (h : size f a.1.layout a.2 a.1.path = .error e) : Blames d a e := by
  obtain ⟨⟨l, path⟩, v⟩ := a
  cases l with
  | fixedArray | dynamicArray | map | embedded => cases hl
  | fixed scalar =>
    rcases bind_eq_error.1 h with hbytes | ⟨bs, -, h⟩
    · exact blames_of_scalarBytes hbytes
    · cases h
  | nullable scalar =>
    -- Only `null` is told apart, so the other values share one argument.
    have hpresent (h : (scalarBytes scalar v path >>= fun _ => pure (flagWidth + scalar.width)) =
        .error e) : Blames d (⟨.nullable scalar, path⟩, v) e := by
      rcases bind_eq_error.1 h with hbytes | ⟨bs, -, h⟩
      · exact blames_of_scalarBytes hbytes
      · cases h
    cases v with
    | null => cases h
    | _ => exact hpresent h
  | string =>
    rcases bind_eq_error.1 h with htext | ⟨bs, hbs, h⟩
    · exact blames_of_text htext
    · obtain ⟨t, rfl, rfl⟩ := text_eq_ok.1 hbs
      rcases bind_eq_error.1 h with hcount | ⟨n, -, h⟩
      · exact blames_of_count rfl hcount
      · cases h
  | fixedBytes len =>
    rcases bind_eq_error.1 h with hblock | ⟨bs, hbs, h⟩
    · exact blames_of_block hblock
    · obtain rfl := block_eq_ok.1 hbs
      rcases check_bind_eq_error.1 h with hlen | ⟨-, h⟩
      · exact blames_of_exactLen rfl hlen
      · cases h
  | dynamicBytes =>
    rcases bind_eq_error.1 h with hblock | ⟨bs, hbs, h⟩
    · exact blames_of_block hblock
    · obtain rfl := block_eq_ok.1 hbs
      rcases bind_eq_error.1 h with hcount | ⟨n, -, h⟩
      · exact blames_of_count rfl hcount
      · cases h

/-- An error of a spot itself is about the spot. -/
theorem blames_of_parts (h : parts d a = .error e) : Blames d a e := by
  obtain ⟨⟨l, path⟩, v⟩ := a
  unfold parts at h
  cases l with
  | fixedArray len elem =>
    rcases bind_eq_error.1 h with hitems | ⟨xs, hxs, h⟩
    · exact blames_of_items hitems
    · obtain rfl := items_eq_ok.1 hxs
      rcases check_bind_eq_error.1 h with hlen | ⟨-, h⟩
      · exact blames_of_exactLen rfl hlen
      · cases h
  | dynamicArray elem =>
    rcases bind_eq_error.1 h with hitems | ⟨xs, hxs, h⟩
    · exact blames_of_items hitems
    · obtain rfl := items_eq_ok.1 hxs
      rcases bind_eq_error.1 h with hcount | ⟨n, -, h⟩
      · exact blames_of_count rfl hcount
      · cases h
  | map key value =>
    rcases bind_eq_error.1 h with hentries | ⟨es, hes, h⟩
    · exact blames_of_entries hentries
    · obtain rfl := entries_eq_ok.1 hes
      rcases bind_eq_error.1 h with hcount | ⟨n, -, h⟩
      · exact blames_of_count rfl hcount
      · cases h
  | embedded type =>
    dsimp only at h
    split at h
    next hdeep =>
      cases h
      exact blames_of_path rfl ⟨⟨type, rfl⟩, hdeep⟩
    · rcases bind_eq_error.1 h with hlookup | ⟨s, hs, h⟩
      · exact blames_of_lookup rfl hlookup
      · rcases bind_eq_error.1 h with hfields | ⟨fields, -, h⟩
        · exact blames_of_fieldValues rfl (lookup_eq_ok.1 hs) hfields
        · cases h
  | fixed | nullable | string | fixedBytes | dynamicBytes =>
    rcases check_bind_eq_error.1 h with hsize | ⟨-, h⟩
    · exact blames_of_plain trivial (verdict_eq_error.1 hsize)
    · cases h

/-! ## Where the parts of a value are -/

/-- The way to a spot leads from a value to what stands there. -/
def Stands (root : String) (v : Value) (a : Spot × Value) : Prop :=
  a.1.path.root = root ∧ v.Leads a.1.path.segments a.2

theorem stands_start (root : String) (l : Layout) (v : Value) :
    Stands root v (⟨l, .start root⟩, v) := ⟨rfl, .here⟩

theorem getElem?_of_mem_zipIdx {α : Type} {xs : List α} {x : α × Nat} (h : x ∈ xs.zipIdx) :
    xs[x.2]? = some x.1 := List.mk_mem_zipIdx_iff_getElem?.1 h

/-- The parts of a value are where the ways to them lead. -/
theorem stands_of_parts {root : String} {ps : List (Spot × Value)} (h : parts d a = .ok ps)
    (ha : Stands root v a) : ∀ b ∈ ps, Stands root v b := by
  obtain ⟨⟨l, path⟩, x⟩ := a
  obtain ⟨hroot, hway⟩ := ha
  unfold parts at h
  cases l with
  | fixedArray len elem =>
    obtain ⟨xs, hxs, h⟩ := bind_eq_ok.1 h
    obtain ⟨-, h⟩ := check_bind_eq_ok.1 h
    cases h
    obtain rfl := items_eq_ok.1 hxs
    intro b hb
    obtain ⟨y, hy, rfl⟩ := List.mem_map.1 hb
    exact ⟨hroot, hway.item (getElem?_of_mem_zipIdx hy)⟩
  | dynamicArray elem =>
    obtain ⟨xs, hxs, h⟩ := bind_eq_ok.1 h
    obtain ⟨n, -, h⟩ := bind_eq_ok.1 h
    cases h
    obtain rfl := items_eq_ok.1 hxs
    intro b hb
    obtain ⟨y, hy, rfl⟩ := List.mem_map.1 hb
    exact ⟨hroot, hway.item (getElem?_of_mem_zipIdx hy)⟩
  | map key value =>
    obtain ⟨es, hes, h⟩ := bind_eq_ok.1 h
    obtain ⟨n, -, h⟩ := bind_eq_ok.1 h
    cases h
    obtain rfl := entries_eq_ok.1 hes
    intro b hb
    obtain ⟨e, he, hb⟩ := List.mem_flatMap.1 hb
    rcases List.mem_pair.1 hb with rfl | rfl
    · exact ⟨hroot, hway.key (getElem?_of_mem_zipIdx he)⟩
    · exact ⟨hroot, hway.value (getElem?_of_mem_zipIdx he)⟩
  | embedded type =>
    dsimp only at h
    split at h
    · cases h
    · obtain ⟨s, -, h⟩ := bind_eq_ok.1 h
      obtain ⟨fields, hfields, h⟩ := bind_eq_ok.1 h
      cases h
      obtain ⟨-, hall, rfl⟩ := fieldValues_eq_ok.1 hfields
      intro b hb
      obtain ⟨f, hf, rfl⟩ := List.mem_map.1 hb
      obtain ⟨g, hg, rfl⟩ := List.mem_map.1 hf
      obtain ⟨y, hy⟩ := hall g hg
      refine ⟨hroot, hway.field ?_⟩
      dsimp only
      rw [hy]
      rfl
  | fixed | nullable | string | fixedBytes | dynamicBytes =>
    obtain ⟨-, h⟩ := check_bind_eq_ok.1 h
    cases h
    exact nofun

/-! ## What a writer and a reader fail at -/

/-- A writer fails with the error of the output, or where the buffer ends. -/
theorem error_of_onto {out : Output} {w : Writer} (h : out.onto w = .error e) :
    out.fault = some e ∨ ∃ path offset need len, e = .outOfBounds path offset need len := by
  have hrun : ∀ (cs : List Chunk) (w last : Writer) (e : WireError), w.run cs = (last, some e) →
      ∃ path offset need len, e = .outOfBounds path offset need len := by
    intro cs
    induction cs with
    | nil => exact fun w last e h => by cases h
    | cons c cs ih =>
      intro w last e h
      unfold Writer.run Writer.put at h
      split at h
      next next hput => exact ih _ _ _ h
      next e' hput =>
        cases h
        split at hput
        · cases hput
        · cases hput
          exact ⟨_, _, _, _, rfl⟩
  unfold Output.onto Writer.putAll at h
  rcases hcs : w.run out.chunks with ⟨last, _ | e'⟩
  · rw [hcs] at h
    dsimp only at h
    cases hfault : out.fault with
    | none =>
      rw [hfault] at h
      cases h
    | some e' =>
      rw [hfault] at h
      cases h
      exact Or.inl rfl
  · rw [hcs] at h
    cases h
    exact Or.inr (hrun _ _ _ _ hcs)

theorem fault_of_plain {l : Layout} {f : OnStruct (Except WireError Nat)}
    (h : verdict (size f l v path) = .ok ()) (hl : l.Plain) (g : OnStruct Output) :
    (write g l v path).fault = none := by
  obtain ⟨n, hn, -⟩ := map_eq_ok.1 h
  have hagree := agree_write (agree_writeStruct ⟨0, "", .little, []⟩ 0) l v path
  rw [size_of_plain hl _ f, hn] at hagree
  rw [write_of_plain hl g]
  exact hagree.1

/-- What comes before the parts of a value is put out without an error, if the value has parts. -/
theorem fault_head {ps : List (Spot × Value)} (h : parts d a = .ok ps) : (head a).fault = none := by
  obtain ⟨⟨l, path⟩, v⟩ := a
  unfold parts at h
  unfold head
  cases l with
  | fixedArray | embedded => rfl
  | dynamicArray elem =>
    obtain ⟨xs, hxs, -⟩ := bind_eq_ok.1 h
    dsimp only
    rw [hxs]
    rfl
  | map key value =>
    obtain ⟨es, hes, -⟩ := bind_eq_ok.1 h
    dsimp only
    rw [hes]
    rfl
  | fixed | nullable | string | fixedBytes | dynamicBytes =>
    obtain ⟨hsize, -⟩ := check_bind_eq_ok.1 h
    exact fault_of_plain hsize trivial _

/-- Writing fails at a spot itself for what measuring fails for, or where the buffer ends. -/
theorem error_of_own {w : Writer} (h : (writeTour d).own a w = .error e) :
    parts d a = .error e ∨ ∃ path offset need len, e = .outOfBounds path offset need len := by
  rcases bind_eq_error.1 h with hparts | ⟨ps, hps, h⟩
  · exact Or.inl hparts
  · rcases bind_eq_error.1 h with hhead | ⟨w', -, h⟩
    · rcases error_of_onto hhead with hfault | hbounds
      · rw [fault_head hps] at hfault
        cases hfault
      · exact Or.inr hbounds
    · cases h

theorem ofBuffer_of_require {input : Input} {need : Nat}
    (h : input.require need path = .error e) : e.OfBuffer := by
  unfold Input.require at h
  split at h
  · cases h
  · cases h
    trivial

theorem ofBuffer_of_take {input : Input} {need : Nat} (h : input.take need path = .error e) :
    e.OfBuffer := by
  rcases check_bind_eq_error.1 h with hrequire | ⟨-, h⟩
  · exact ofBuffer_of_require hrequire
  · cases h

theorem ofBuffer_of_readScalar {scalar : Scalar} {input : Input}
    (h : readScalar scalar path input = .error e) : e.OfBuffer := by
  rcases bind_eq_error.1 h with htake | ⟨r, -, h⟩
  · exact ofBuffer_of_take htake
  · cases h

theorem ofBuffer_of_readCount {input : Input} (h : readCount path input = .error e) :
    e.OfBuffer := by
  rcases bind_eq_error.1 h with htake | ⟨r, -, h⟩
  · exact ofBuffer_of_take htake
  · cases h

theorem ofBuffer_of_readCounted {input : Input} (h : readCounted path input = .error e) :
    e.OfBuffer := by
  rcases bind_eq_error.1 h with hcount | ⟨r, -, h⟩
  · exact ofBuffer_of_readCount hcount
  · exact ofBuffer_of_take h

theorem ofBuffer_of_readElementCount {width : UInt64} {input : Input}
    (h : readElementCount width path input = .error e) : e.OfBuffer := by
  rcases bind_eq_error.1 h with hcount | ⟨r, -, h⟩
  · exact ofBuffer_of_readCount hcount
  · dsimp only at h
    split at h
    · split at h
      · cases h
        trivial
      · cases h
    · rcases check_bind_eq_error.1 h with hrequire | ⟨-, h⟩
      · exact ofBuffer_of_require hrequire
      · cases h

/-- Reading a value without parts fails at the buffer only. -/
theorem ofBuffer_of_plain {l : Layout} {widths : MinWidths} {f : ReadStruct} {input : Input}
    (h : read widths f l path input = .error e) (hl : l.Plain) : e.OfBuffer := by
  cases l with
  | fixedArray | dynamicArray | map | embedded => cases hl
  | fixed scalar => exact ofBuffer_of_readScalar h
  | nullable scalar =>
    rcases bind_eq_error.1 h with hflag | ⟨r, -, h⟩
    · exact ofBuffer_of_take hflag
    · dsimp only at h
      split at h
      · cases h
      · exact ofBuffer_of_readScalar h
  | string =>
    rcases bind_eq_error.1 h with hcounted | ⟨r, -, h⟩
    · exact ofBuffer_of_readCounted hcounted
    · dsimp only at h
      split at h
      · cases h
      · cases h
        trivial
  | fixedBytes len =>
    rcases bind_eq_error.1 h with htake | ⟨r, -, h⟩
    · exact ofBuffer_of_take htake
    · cases h
  | dynamicBytes =>
    rcases bind_eq_error.1 h with hcounted | ⟨r, -, h⟩
    · exact ofBuffer_of_readCounted hcounted
    · cases h

/-- Where reading fails at a spot itself, it is at the buffer or at a struct: there are too many
around it, or it is not there. -/
theorem error_of_announced {widths : MinWidths} {a : Spot} {input : Input}
    (h : announced d widths a input = .error e) : e.OfBuffer ∨
      ∃ type, a.layout = .embedded type ∧
        ((maxDepth ≤ a.path.depth ∧ e = .depthExceeded a.path) ∨
          (d.get? type = none ∧ e = .unknownType type)) := by
  obtain ⟨l, path⟩ := a
  unfold announced at h
  cases l with
  | fixedArray => cases h
  | dynamicArray elem =>
    rcases bind_eq_error.1 h with hcount | ⟨r, -, h⟩
    · exact Or.inl (ofBuffer_of_readElementCount hcount)
    · cases h
  | map key value =>
    rcases bind_eq_error.1 h with hcount | ⟨r, -, h⟩
    · exact Or.inl (ofBuffer_of_readElementCount hcount)
    · cases h
  | embedded type =>
    refine Or.inr ⟨type, rfl, ?_⟩
    dsimp only at h
    split at h
    next hdeep =>
      cases h
      exact Or.inl ⟨hdeep, rfl⟩
    · rcases bind_eq_error.1 h with hlookup | ⟨s, -, h⟩
      · unfold lookup at hlookup
        split at hlookup
        · cases hlookup
        next hnone =>
          cases hlookup
          exact Or.inr ⟨hnone, rfl⟩
      · cases h
  | fixed | nullable | string | fixedBytes | dynamicBytes =>
    rcases bind_eq_error.1 h with hread | ⟨r, -, h⟩
    · exact Or.inl (ofBuffer_of_plain hread trivial)
    · cases h

end Wire

namespace Codec

open Wire

variable {c : Codec} {type : String} {v : Value} {p : Path} {e : WireError}

/-! ## Errors of a codec -/

theorem size_eq_error : c.size type v = .error e ↔ ∃ a, (sizeTour c.layouts).Reaches
    (⟨.embedded type, .start type⟩, v) () a () ∧ parts c.layouts a = .error e := by
  have hrun : c.size type v = .error e ↔
      (sizeTour c.layouts).run (⟨.embedded type, .start type⟩, v) () = .error e :=
    verdict_eq_error.symm
  rw [hrun, Tour.run_eq_error]
  constructor
  · rintro ⟨a, ⟨⟩, hreach, hown⟩
    refine ⟨a, hreach, ?_⟩
    rcases bind_eq_error.1 hown with hparts | ⟨ps, -, hown⟩
    · exact hparts
    · cases hown
  · rintro ⟨a, hreach, hparts⟩
    exact ⟨a, (), hreach, bind_eq_error.2 (Or.inl hparts)⟩

theorem marshal_eq_error {buf : List UInt8} {offset : Nat} :
    (c.marshal type v buf offset).2 = .error e ↔ ∃ a w, (writeTour c.layouts).Reaches
      (⟨.embedded type, .start type⟩, v) ⟨buf, offset⟩ a w ∧
        (writeTour c.layouts).own a w = .error e := by
  have hrun : (c.marshal type v buf offset).2 = .error e ↔
      (writeTour c.layouts).run (⟨.embedded type, .start type⟩, v) ⟨buf, offset⟩ = .error e := by
    have hinto := into_eq_onto (c.output type v) buf offset
    change _ ↔ (c.output type v).onto ⟨buf, offset⟩ = .error e
    cases honto : (c.output type v).onto ⟨buf, offset⟩ with
    | error e' =>
      rw [honto] at hinto
      unfold marshal
      rw [hinto]
      simp
    | ok w =>
      rw [honto] at hinto
      unfold marshal
      rw [hinto]
      simp
  rw [hrun, Tour.run_eq_error]

theorem unmarshal_eq_error {buf : List UInt8} {offset : Nat} :
    c.unmarshal type buf offset = .error e ↔ ∃ a input, (readTour c.layouts c.widths).Reaches
      ⟨.embedded type, .start type⟩ (.ofBuffer buf offset) a input ∧
        announced c.layouts c.widths a input = .error e := by
  have hrun : c.unmarshal type buf offset = .error e ↔
      (readTour c.layouts c.widths).run ⟨.embedded type, .start type⟩ (.ofBuffer buf offset) =
        .error e := by
    change (Wire.readStruct c.layouts c.widths maxDepth type (.start type)
        (.ofBuffer buf offset) >>= fun r => pure (r.1, r.2.offset)) = .error e ↔
      (Wire.readStruct c.layouts c.widths maxDepth type (.start type) (.ofBuffer buf offset) >>=
        fun r => .ok r.2) = .error e
    cases Wire.readStruct c.layouts c.widths maxDepth type (.start type) (.ofBuffer buf offset) with
    | error e' => simp [error_bind]
    | ok r => simp [pure, Except.pure]
  rw [hrun, Tour.run_eq_error]
  rfl

theorem parts_too_deep {d : DocumentLayout} {a : Spot × Value} :
    parts d a = .error (.depthExceeded p) ↔
      (∃ type, a.1.layout = .embedded type) ∧ maxDepth ≤ a.1.path.depth ∧ a.1.path = p := by
  constructor
  · intro h
    obtain ⟨⟨hl, hdeep⟩, hpath⟩ := blames_of_parts h
    exact ⟨hl, hdeep, (hpath p rfl).symm⟩
  · obtain ⟨⟨l, path⟩, x⟩ := a
    rintro ⟨⟨type, rfl⟩, hdeep, rfl⟩
    exact if_pos hdeep

/-- What measuring reports about the depth is about a struct that it reaches with the most structs
around it, and such a struct is reported whatever came before it. -/
theorem size_too_deep : c.size type v = .error (.depthExceeded p) ↔
    ∃ inner x, p.depth = maxDepth ∧ (sizeTour c.layouts).Reaches
      (⟨.embedded type, .start type⟩, v) () (⟨.embedded inner, p⟩, x) () := by
  rw [size_eq_error]
  constructor
  · rintro ⟨⟨⟨l, path⟩, x⟩, hreach, hparts⟩
    obtain ⟨⟨inner, rfl⟩, hdeep, rfl⟩ := parts_too_deep.1 hparts
    have hshallow := hreach.depth_le (Nat.zero_le _)
    exact ⟨inner, x, Nat.le_antisymm hshallow hdeep, hreach⟩
  · rintro ⟨inner, x, hdepth, hreach⟩
    exact ⟨_, hreach, parts_too_deep.2 ⟨⟨inner, rfl⟩, hdepth.ge, rfl⟩⟩

theorem own_too_deep {d : DocumentLayout} {a : Spot × Value} {w : Writer} :
    (writeTour d).own a w = .error (.depthExceeded p) ↔ parts d a = .error (.depthExceeded p) := by
  constructor
  · intro h
    rcases error_of_own h with hparts | ⟨_, _, _, _, hbounds⟩
    · exact hparts
    · cases hbounds
  · intro h
    exact bind_eq_error.2 (Or.inl h)

/-- It is the same with what marshalling reports about the depth. -/
theorem marshal_too_deep {buf : List UInt8} {offset : Nat} :
    (c.marshal type v buf offset).2 = .error (.depthExceeded p) ↔
      ∃ inner x w, p.depth = maxDepth ∧ (writeTour c.layouts).Reaches
        (⟨.embedded type, .start type⟩, v) ⟨buf, offset⟩ (⟨.embedded inner, p⟩, x) w := by
  rw [marshal_eq_error]
  constructor
  · rintro ⟨⟨⟨l, path⟩, x⟩, w, hreach, hown⟩
    obtain ⟨⟨inner, rfl⟩, hdeep, rfl⟩ := parts_too_deep.1 (own_too_deep.1 hown)
    have hshallow := hreach.depth_le (Nat.zero_le _)
    exact ⟨inner, x, w, Nat.le_antisymm hshallow hdeep, hreach⟩
  · rintro ⟨inner, x, w, hdepth, hreach⟩
    exact ⟨_, w, hreach, own_too_deep.2 (parts_too_deep.2 ⟨⟨inner, rfl⟩, hdepth.ge, rfl⟩)⟩

/-- Marshalling reports what measuring reports about the depth, if what it puts out before has
room. -/
theorem marshal_of_size_too_deep (h : c.size type v = .error (.depthExceeded p))
    {buf : List UInt8} {offset : Nat}
    (hroom : offset + (c.output type v).bytes.length ≤ buf.length) :
    (c.marshal type v buf offset).2 = .error (.depthExceeded p) := by
  have hfault := agree_output c type v
  rw [h] at hfault
  rw [marshal, into_of_le hroom, show (c.output type v).fault = some _ from hfault]

/-- It is the same with what unmarshalling reports about the depth. -/
theorem unmarshal_too_deep {buf : List UInt8} {offset : Nat} :
    c.unmarshal type buf offset = .error (.depthExceeded p) ↔
      ∃ inner input, p.depth = maxDepth ∧ (readTour c.layouts c.widths).Reaches
        ⟨.embedded type, .start type⟩ (.ofBuffer buf offset) ⟨.embedded inner, p⟩ input := by
  rw [unmarshal_eq_error]
  constructor
  · rintro ⟨⟨l, path⟩, input, hreach, hown⟩
    rcases error_of_announced hown with hbuffer | ⟨inner, rfl, ⟨hdeep, h⟩ | ⟨-, h⟩⟩
    · exact hbuffer.elim
    · cases h
      have hshallow := hreach.depth_le (Nat.zero_le _)
      exact ⟨inner, input, Nat.le_antisymm hshallow hdeep, hreach⟩
    · cases h
  · rintro ⟨inner, input, hdepth, hreach⟩
    exact ⟨_, input, hreach, if_pos hdepth.ge⟩

/-- An error of measuring tells the way from the value to one that it is true of. -/
theorem size_error_holds (h : c.size type v = .error e) (hp : e.path? = some p) :
    p.root = type ∧ ∃ l x, v.Leads p.segments x ∧ e.Holds c.layouts (⟨l, p⟩, x) := by
  obtain ⟨⟨⟨l, path⟩, x⟩, hreach, hparts⟩ := size_eq_error.1 h
  obtain ⟨hholds, hpath⟩ := blames_of_parts hparts
  obtain rfl := hpath p hp
  have hstands : Stands type v (⟨l, p⟩, x) := by
    refine hreach.induct (P := Stands type v) ?_ (stands_start type _ v)
    intro a _ r hown ha
    obtain ⟨ps, hps, hr⟩ := bind_eq_ok.1 hown
    cases hr
    exact stands_of_parts hps ha
  exact ⟨hstands.1, l, x, hstands.2, hholds⟩

/-- A codec keeps account of where it is and how deep. -/
structure KeepsAccount (c : Codec) : Prop where
  /-- The walks begin where the functions of the codec do and tell the same. -/
  measures : ∀ type v, (c.measuring (.embedded type) v (.start type ())).1 = c.size type v
  writes : ∀ type v buf offset,
    match c.writing (.embedded type) v (.start type ⟨buf, offset⟩) with
    | (.ok _, w) => c.marshal type v buf offset = (w.site.buf, .ok w.site.pos)
    | (.error e, _) => (c.marshal type v buf offset).2 = .error e
  reads : ∀ type buf offset,
    match c.reading (.embedded type) (.start type (.ofBuffer buf offset)) with
    | (.ok v, w) => c.unmarshal type buf offset = .ok (v, w.site.offset)
    | (.error e, _) => c.unmarshal type buf offset = .error e
  /-- A walk through any layout has its path and its depth again when it succeeds. -/
  measuring_comes_back : ∀ l v w n after, c.measuring l v w = (.ok n, after) →
    after.path = w.path ∧ after.depth = w.depth
  writing_comes_back : ∀ l v w r after, c.writing l v w = (.ok r, after) →
    after.path = w.path ∧ after.depth = w.depth
  reading_comes_back : ∀ l w v after, c.reading l w = (.ok v, after) →
    after.path = w.path ∧ after.depth = w.depth
  /-- Too many structs are reported exactly where a struct is reached with the most around it. -/
  size_depth : ∀ type v p, c.size type v = .error (.depthExceeded p) ↔
    ∃ inner x, p.depth = maxDepth ∧ (sizeTour c.layouts).Reaches
      (⟨.embedded type, .start type⟩, v) () (⟨.embedded inner, p⟩, x) ()
  marshal_depth : ∀ type v buf offset p,
    (c.marshal type v buf offset).2 = .error (.depthExceeded p) ↔
      ∃ inner x w, p.depth = maxDepth ∧ (writeTour c.layouts).Reaches
        (⟨.embedded type, .start type⟩, v) ⟨buf, offset⟩ (⟨.embedded inner, p⟩, x) w
  marshal_depth_of_room : ∀ type v buf offset p, c.size type v = .error (.depthExceeded p) →
    offset + (c.output type v).bytes.length ≤ buf.length →
      (c.marshal type v buf offset).2 = .error (.depthExceeded p)
  unmarshal_depth : ∀ type buf offset p,
    c.unmarshal type buf offset = .error (.depthExceeded p) ↔
      ∃ inner input, p.depth = maxDepth ∧ (readTour c.layouts c.widths).Reaches
        ⟨.embedded type, .start type⟩ (.ofBuffer buf offset) ⟨.embedded inner, p⟩ input
  /-- An error of measuring tells the way from the value to one that it is true of. -/
  blame : ∀ type v e p, c.size type v = .error e → e.path? = some p →
    p.root = type ∧ ∃ l x, v.Leads p.segments x ∧ e.Holds c.layouts (⟨l, p⟩, x)

/-- Every codec does. -/
theorem keepsAccount (c : Codec) : c.KeepsAccount where
  measures := c.measuring_start
  writes := c.writing_start
  reads := c.reading_start
  measuring_comes_back l v _ _ _ h := (c.finds_measuring l v).comes_back h
  writing_comes_back l v _ _ _ h := (c.puts_writing l v).comes_back h
  reading_comes_back l _ _ _ h := (c.follows_reading l).comes_back h
  size_depth _ _ _ := size_too_deep
  marshal_depth _ _ _ _ _ := marshal_too_deep
  marshal_depth_of_room _ _ _ _ _ h hroom := marshal_of_size_too_deep h hroom
  unmarshal_depth _ _ _ _ := unmarshal_too_deep
  blame _ _ _ _ := size_error_holds

end Codec

end WireSchema
