-- Values that have the shape of their layout. Reading a tree gives no others, and the writer
-- refuses such a value for its numbers, lengths and depth only. Whatever it writes of one is read
-- back as it was, unless a narrow float is in it.
import Mathlib.Data.List.Nodup
import WireSchema.Proofs.Wire.Settled

namespace WireSchema

open Outcome Wire

/-! ## Errors of limits -/

/-- The errors of values that have the right shape: a number out of range, a length that is not
the one of the layout, a count that is too large for its place, structs too deep inside each
other. -/
def WireError.IsLimit : WireError → Prop
  | .outOfRange .. | .lengthMismatch .. | .countOverflow .. | .depthExceeded _ => True
  | _ => False

namespace Wire

variable {α β : Type}

/-- A computation that fails at a limit only. -/
def OnlyLimits (x : Except WireError α) : Prop := ∀ e, x = .error e → e.IsLimit

theorem OnlyLimits.ok (a : α) : OnlyLimits (.ok a : Except WireError α) := nofun

theorem OnlyLimits.bind {x : Except WireError α} {f : α → Except WireError β} (hx : OnlyLimits x)
    (hf : ∀ a, x = .ok a → OnlyLimits (f a)) : OnlyLimits (x >>= f) := by
  intro e he
  cases hcase : x with
  | error e' =>
    rw [hcase] at he
    cases he
    exact hx e hcase
  | ok a =>
    rw [hcase, ok_bind] at he
    exact hf a hcase e he

theorem onlyLimits_count (n : Nat) (path : Path) : OnlyLimits (count n path) := by
  unfold count
  intro e he
  split at he
  · cases he
  · cases he
    trivial

theorem onlyLimits_exactLen (expected : UInt32) (found : Nat) (path : Path) :
    OnlyLimits (exactLen expected found path) := by
  unfold exactLen
  intro e he
  split at he
  · cases he
  · cases he
    trivial

theorem onlyLimits_sumSizes {size : Nat → α → Except WireError Nat} {xs : List α}
    (h : ∀ i, ∀ x ∈ xs, OnlyLimits (size i x)) : OnlyLimits (sumSizes size xs) := by
  have hparts : ∀ x ∈ xs.zipIdx, OnlyLimits (size x.2 x.1) :=
    fun x hx => h x.2 x.1 (List.fst_mem_of_mem_zipIdx hx)
  unfold sumSizes
  generalize xs.zipIdx = parts at hparts
  induction parts with
  | nil => exact .ok 0
  | cons x parts ih =>
    obtain ⟨hx, hrest⟩ := List.forall_mem_cons.1 hparts
    rw [foldlM_size_cons]
    exact hx.bind fun n _ => (ih hrest).bind fun m _ => .ok (n + m)

end Wire

/-! ## Scalars -/

namespace Scalar

/-- A value is of the kind of a scalar. It may still be out of range. -/
def Suits (scalar : Scalar) (v : Value) : Prop :=
  match scalar with
  | .bool => ∃ b, v = .bool b
  | .i8 | .i16 | .i32 | .i64 => ∃ n, v = .int n
  | .u8 | .u16 | .u32 | .u64 => ∃ n, v = .uint n
  | .f32 | .f64 => ∃ x, v = .float x

variable {scalar : Scalar} {v : Value}

/-- The value of a scalar in a tree is of its kind. -/
theorem suits_of_tree {path : Path} {tree : Json}
    (h : Value.scalarOfJson scalar path tree = .ok v) : scalar.Suits v := by
  cases scalar with
  | bool =>
    cases tree <;> simp only [Value.scalarOfJson, reduceCtorEq, Except.ok.injEq] at h
    exact ⟨_, h.symm⟩
  | f32 | f64 =>
    cases tree <;> simp only [Value.scalarOfJson, reduceCtorEq, Except.ok.injEq] at h
    · exact ⟨_, h.symm⟩
    · exact ⟨_, h.symm⟩
  | i8 | i16 | i32 | i64 | u8 | u16 | u32 | u64 =>
    cases tree <;> simp only [Value.scalarOfJson, reduceCtorEq] at h
    split at h
    · cases h
      exact ⟨_, rfl⟩
    · cases h

theorem signedBytes_error {width : Nat} {n : Int} {fault : Fault} (hn : integer v = .ok n)
    (h : signedBytes width v = .error fault) : fault = .range n := by
  unfold signedBytes at h
  rw [hn, ok_bind] at h
  split at h
  · cases h
  · exact (Except.error.inj h).symm

theorem unsignedBytes_error {width : Nat} {n : Int} {fault : Fault} (hn : integer v = .ok n)
    (h : unsignedBytes width v = .error fault) : fault = .range n := by
  unfold unsignedBytes at h
  rw [hn, ok_bind] at h
  split at h
  · cases h
  · exact (Except.error.inj h).symm

/-- Of a value of the kind of a scalar only the range can be wrong. -/
theorem Suits.bytes_error (h : scalar.Suits v) {fault : Fault}
    (hfault : scalar.bytes v = .error fault) : ∃ n, fault = .range n := by
  cases scalar with
  | bool | f32 | f64 =>
    obtain ⟨_, rfl⟩ := h
    cases hfault
  | i8 | i16 | i32 | i64 =>
    obtain ⟨n, rfl⟩ := h
    exact ⟨_, signedBytes_error rfl hfault⟩
  | u8 | u16 | u32 | u64 =>
    obtain ⟨n, rfl⟩ := h
    exact ⟨_, unsignedBytes_error rfl hfault⟩

theorem Suits.onlyLimits (h : scalar.Suits v) (path : Path) :
    OnlyLimits (scalarBytes scalar v path) := by
  intro e he
  unfold scalarBytes at he
  cases hbytes : scalar.bytes v with
  | ok bs =>
    rw [hbytes] at he
    cases he
  | error fault =>
    obtain ⟨n, rfl⟩ := h.bytes_error hbytes
    rw [hbytes] at he
    cases he
    trivial

theorem Suits.ne_null (h : scalar.Suits v) : v ≠ .null := by
  rintro rfl
  cases scalar <;> obtain ⟨_, ⟨⟩⟩ := h

theorem Suits.normal_eq (h : scalar.Suits v) : scalar.normal v = v := by
  cases scalar with
  | bool | f32 | f64 => rfl
  | i8 | i16 | i32 | i64 =>
    obtain ⟨n, rfl⟩ := h
    simp only [normal, signedNormal, integer, Int64.ofInt_toInt]
  | u8 | u16 | u32 | u64 =>
    obtain ⟨n, rfl⟩ := h
    simp only [normal, unsignedNormal, integer, Int.toNat_natCast, UInt64.ofNat_toNat]

/-- Every scalar but the narrow float keeps the values of its kind. -/
theorem Suits.exact (h : scalar.Suits v) (hwide : scalar ≠ .f32) : scalar.Exact v := by
  cases scalar with
  | f32 => exact absurd rfl hwide
  | f64 => exact h
  | _ => trivial

end Scalar

/-! ## The shape of a layout -/

/-- A value has the shape of a layout: every part is of the kind that stands there, and a struct
has the fields of its layout in order. Numbers, lengths, counts and depth are free. -/
inductive Conforms (d : DocumentLayout) : Layout → Value → Prop
  | fixed {scalar : Scalar} {v : Value} : scalar.Suits v → Conforms d (.fixed scalar) v
  | absent {scalar : Scalar} : Conforms d (.nullable scalar) .null
  | present {scalar : Scalar} {v : Value} : scalar.Suits v → Conforms d (.nullable scalar) v
  | string {s : String} : Conforms d .string (.string s)
  | fixedBytes {len : UInt32} {bs : List UInt8} : Conforms d (.fixedBytes len) (.bytes bs)
  | dynamicBytes {bs : List UInt8} : Conforms d .dynamicBytes (.bytes bs)
  | fixedArray {len : UInt32} {elem : Layout} {xs : List Value} :
      (∀ x ∈ xs, Conforms d elem x) → Conforms d (.fixedArray len elem) (.array xs)
  | dynamicArray {elem : Layout} {xs : List Value} :
      (∀ x ∈ xs, Conforms d elem x) → Conforms d (.dynamicArray elem) (.array xs)
  | map {key value : Layout} {es : List (Value × Value)} :
      (∀ e ∈ es, Conforms d key e.1) → (∀ e ∈ es, Conforms d value e.2) →
      Conforms d (.map key value) (.map es)
  | struct {type : String} {s : StructLayout} {given : List (String × Value)} :
      d.get? type = some s → given.map Prod.fst = s.fields.map FieldLayout.name →
      (∀ f ∈ s.fields, ∀ x, given.lookup f.name = some x → Conforms d f.layout x) →
      Conforms d (.embedded type) (.struct given)

variable {d : DocumentLayout}

/-! ## Reading trees -/

namespace Value

section Structs

variable {onStruct : StructOfJson}
  (h : ∀ type path tree v, onStruct type path tree = .ok v → Conforms d (.embedded type) v)
include h

/-- The value of a layout in a tree has its shape, when that is so for the structs in it. -/
theorem conforms_of_tree {l : Layout} {path : Path} {tree : Json} {v : Value}
    (hv : ofTree onStruct l path tree = .ok v) : Conforms d l v := by
  induction l generalizing path tree v with
  | fixed scalar => exact .fixed (Scalar.suits_of_tree hv)
  | nullable scalar =>
    unfold ofTree at hv
    split at hv
    · cases hv
      exact .absent
    · exact .present (Scalar.suits_of_tree hv)
  | string =>
    cases tree <;> cases hv
    exact .string
  | fixedBytes len =>
    obtain ⟨bs, _, rfl⟩ := map_eq_ok.1 hv
    exact .fixedBytes
  | dynamicBytes =>
    obtain ⟨bs, _, rfl⟩ := map_eq_ok.1 hv
    exact .dynamicBytes
  | fixedArray len elem ih =>
    obtain ⟨items, _, hv⟩ := bind_eq_ok.1 hv
    obtain ⟨xs, hxs, hv⟩ := bind_eq_ok.1 hv
    cases hv
    exact .fixedArray (forall_of_mapM hxs fun _ _ hx => ih hx)
  | dynamicArray elem ih =>
    obtain ⟨items, _, hv⟩ := bind_eq_ok.1 hv
    obtain ⟨xs, hxs, hv⟩ := bind_eq_ok.1 hv
    cases hv
    exact .dynamicArray (forall_of_mapM hxs fun _ _ hx => ih hx)
  | map key value ihk ihv =>
    -- Both spellings read the key of an entry as a key and the value as a value.
    suffices hentries : ∃ es, v = .map es ∧ ∀ e ∈ es,
        Conforms d key e.1 ∧ Conforms d value e.2 by
      obtain ⟨es, rfl, hes⟩ := hentries
      exact .map (fun e he => (hes e he).1) fun e he => (hes e he).2
    unfold ofTree at hv
    split at hv
    · obtain ⟨es, hes, hv⟩ := bind_eq_ok.1 hv
      cases hv
      refine ⟨es, rfl, forall_of_mapM hes fun entry e hentry => ?_⟩
      obtain ⟨keyTree, _, hentry⟩ := bind_eq_ok.1 hentry
      obtain ⟨k, hk, hentry⟩ := bind_eq_ok.1 hentry
      obtain ⟨x, hx, hentry⟩ := bind_eq_ok.1 hentry
      cases hentry
      exact ⟨ihk hk, ihv hx⟩
    · obtain ⟨es, hes, hv⟩ := bind_eq_ok.1 hv
      cases hv
      refine ⟨es, rfl, forall_of_mapM hes fun pair e hpair => ?_⟩
      split at hpair
      · obtain ⟨k, hk, hpair⟩ := bind_eq_ok.1 hpair
        obtain ⟨x, hx, hpair⟩ := bind_eq_ok.1 hpair
        cases hpair
        exact ⟨ihk hk, ihv hx⟩
      · cases hpair
    · cases hv
  | embedded type => exact h type path tree v hv

/-- A field that is missing in a tree is one that may be absent. -/
theorem conforms_of_field {path : Path} {entries : List (String × Json)} {f : FieldLayout}
    {g : String × Value} (hg : fieldOfTree onStruct path entries f = .ok g) :
    g.1 = f.name ∧ Conforms d f.layout g.2 := by
  unfold fieldOfTree at hg
  split at hg
  · obtain ⟨v, hv, hg⟩ := bind_eq_ok.1 hg
    cases hg
    exact ⟨rfl, conforms_of_tree h hv⟩
  · by_cases hnullable : isNullable f.layout
    · rw [if_pos hnullable] at hg
      cases hg
      refine ⟨rfl, ?_⟩
      cases hlayout : f.layout with
      | nullable scalar => exact .absent
      | _ =>
        rw [hlayout] at hnullable
        cases hnullable
    · rw [if_neg hnullable] at hg
      cases hg

end Structs

/-- The value of a struct in a tree has its shape. -/
theorem conforms_of_structTree (hd : d.FieldsDiffer) {fuel : Nat} {type : String} {path : Path}
    {tree : Json} {v : Value} (hv : structOfTree d fuel type path tree = .ok v) :
    Conforms d (.embedded type) v := by
  induction fuel generalizing type path tree v with
  | zero => cases hv
  | succ fuel ih =>
    rw [structOfTree] at hv
    cases hs : d.get? type with
    | none =>
      rw [hs] at hv
      cases hv
    | some s =>
      rw [hs] at hv
      obtain ⟨entries, _, hv⟩ := bind_eq_ok.1 hv
      split at hv
      · cases hv
      obtain ⟨given, hgiven, hv⟩ := bind_eq_ok.1 hv
      cases hv
      have hfields : List.Forall₂ (fun f g => g.1 = f.name ∧ Conforms d f.layout g.2)
          s.fields given :=
        (mapM_eq_ok.1 hgiven).imp fun f g hg => conforms_of_field (fun _ _ _ _ => ih) hg
      refine .struct hs ?_ fun f hf x hx => ?_
      · rw [← List.forall₂_eq_eq_eq, List.forall₂_map_left_iff, List.forall₂_map_right_iff]
        exact hfields.flip.imp fun g f h => h.1
      · -- Names differ, so what stands under a name was read by the field of that name.
        obtain ⟨before, after, hmem, _⟩ := List.lookup_eq_some_iff.1 hx
        obtain ⟨f', hf', hname, hconforms⟩ := exists_of_forall₂ hfields (f.name, x) (by simp [hmem])
        obtain rfl : f = f' := List.inj_on_of_nodup_map (hd.get hs) hf hf' hname
        exact hconforms

end Value

/-! ## Values that conform -/

namespace Conforms

variable {l : Layout} {v : Value}

/-- Measuring a value that has the shape of its layout fails at a limit only. -/
theorem onlyLimits_size (h : Conforms d l v) (room : Nat) (path : Path) :
    OnlyLimits (size (structSize d room) l v path) := by
  induction h generalizing room path with
  | fixed hs => exact (hs.onlyLimits path).bind fun _ _ => .ok _
  | absent => exact .ok _
  | @present scalar v hs =>
    cases v with
    | null => exact absurd rfl hs.ne_null
    | _ => exact (hs.onlyLimits path).bind fun _ _ => .ok _
  | string => exact (onlyLimits_count _ path).bind fun _ _ => .ok _
  | fixedBytes => exact (onlyLimits_exactLen _ _ path).bind fun _ _ => .ok _
  | dynamicBytes => exact (onlyLimits_count _ path).bind fun _ _ => .ok _
  | fixedArray _ ih =>
    refine (onlyLimits_exactLen _ _ path).bind fun _ _ => ?_
    exact onlyLimits_sumSizes fun i x hx => ih x hx room (path.index i)
  | dynamicArray _ ih =>
    refine (onlyLimits_count _ path).bind fun _ _ => .bind ?_ fun _ _ => .ok _
    exact onlyLimits_sumSizes fun i x hx => ih x hx room (path.index i)
  | map _ _ ihk ihv =>
    refine (onlyLimits_count _ path).bind fun _ _ => .bind ?_ fun _ _ => .ok _
    refine onlyLimits_sumSizes fun i e he => ?_
    exact (ihk e he room (path.index i)).bind fun _ _ =>
      (ihv e he room (path.index i)).bind fun _ _ => .ok _
  | @struct type s given hs hnames _ ih =>
    cases room with
    | zero =>
      rintro e ⟨⟩
      trivial
    | succ room =>
      have hall : ∀ f ∈ s.fields, ∃ x, (Value.struct given).field? f.name = some x :=
        fun f hf => exists_lookup (hnames ▸ List.mem_map_of_mem hf)
      have hknown : ∀ g ∈ given, ∃ f ∈ s.fields, f.name = g.1 := by
        intro g hg
        exact List.mem_map.1 (hnames ▸ List.mem_map_of_mem hg)
      rw [size, structSize, lookup_eq_ok.2 hs, ok_bind,
        fieldValues_eq_ok.2 ⟨⟨given, rfl, hknown⟩, hall, rfl⟩, ok_bind]
      refine onlyLimits_sumSizes fun _ p hp => ?_
      obtain ⟨f, hf, rfl⟩ := List.mem_map.1 hp
      obtain ⟨x, hx⟩ := hall f hf
      simp only [hx, Option.getD_some]
      exact ih f hf x hx room (path.field f.name)

/-- A value that has the shape of its layout is its own normal form. -/
theorem normal_eq (hd : d.FieldsDiffer) (h : Conforms d l v) : v.normal d l = v := by
  induction h with
  | fixed hs =>
    rw [Value.normal]
    exact hs.normal_eq
  | absent | string | fixedBytes | dynamicBytes => rfl
  | present hs =>
    rw [Value.normal_present hs.ne_null]
    exact hs.normal_eq
  | fixedArray _ ih | dynamicArray _ ih =>
    rw [Value.normal, Value.normalItems_eq, List.map_congr_left ih, List.map_id']
  | map _ _ ihk ihv =>
    rw [Value.normal, Value.normalEntries_eq,
      List.map_congr_left fun e he => by rw [ihk e he, ihv e he], List.map_id']
  | @struct type s given hs hnames _ ih =>
    have hdiffer : (given.map Prod.fst).Nodup := hnames ▸ hd.get hs
    have hfields : List.Forall₂ (fun g f => g.1 = f.name) given s.fields := by
      rwa [← List.forall₂_eq_eq_eq, List.forall₂_map_left_iff, List.forall₂_map_right_iff] at hnames
    obtain ⟨hlen, hzip⟩ := List.forall₂_iff_zip.1 hfields.flip
    rw [Value.normal_struct hs]
    congr 1
    refine filterMap_of_forall₂ (List.forall₂_iff_zip.2 ⟨hlen, fun {f g} hmem => ?_⟩)
    have hname := hzip hmem
    have hlookup : given.lookup f.name = some g.2 :=
      hname ▸ lookup_of_nodup hdiffer (List.of_mem_zip hmem).2
    rw [hlookup, Option.map_some, ih f (List.of_mem_zip hmem).1 _ hlookup, ← hname]

/-- Where no narrow float is, a value that has the shape of its layout has floats that come back. -/
theorem floatsExact (hwide : Scalar.f32 ∉ d.scalars) (h : Conforms d l v)
    (hl : Scalar.f32 ∉ l.scalars) : Slot.FloatsExact d (l, v) := by
  have hne {scalar : Scalar} (hscalar : Scalar.f32 ∉ [scalar]) : scalar ≠ .f32 :=
    fun heq => hscalar (heq ▸ List.mem_singleton_self _)
  induction h with
  | fixed hs => exact Slot.everyPart_of_plain trivial (hs.exact (hne hl))
  | absent => exact Slot.everyPart_of_plain trivial (Or.inl rfl)
  | present hs => exact Slot.everyPart_of_plain trivial (Or.inr (hs.exact (hne hl)))
  | string | fixedBytes | dynamicBytes => exact Slot.everyPart_of_plain trivial trivial
  | fixedArray _ ih | dynamicArray _ ih =>
    refine Slot.everyPart_iff.2 ⟨trivial, ?_⟩
    rintro _ ⟨⟩
    exact ih _ ‹_› hl
  | map _ _ ihk ihv =>
    rw [Layout.scalars, List.mem_append, not_or] at hl
    refine Slot.everyPart_iff.2 ⟨trivial, ?_⟩
    rintro _ (_ | _ | he | he)
    · exact ihk _ he hl.1
    · exact ihv _ he hl.2
  | struct hs _ _ ih =>
    refine Slot.everyPart_iff.2 ⟨trivial, ?_⟩
    rintro _ (_ | _ | _ | _ | ⟨hs', hf, hx⟩)
    cases hs.symm.trans hs'
    exact ih _ hf _ hx fun hmem => hwide (DocumentLayout.mem_scalars hs hf hmem)

end Conforms

namespace Codec

theorem conforms_of_valueOfJson {c : Codec} (hd : c.layouts.FieldsDiffer) {type : String}
    {tree : Json} {v : Value} (h : c.valueOfJson type tree = .ok v) :
    Conforms c.layouts (.embedded type) v :=
  Value.conforms_of_structTree hd h

/-- A value that cannot be encoded is one that cannot be measured. -/
theorem size_of_encode_error {c : Codec} {type : String} {v : Value} {e : WireError}
    (h : c.encode type v = .error e) : c.size type v = .error e := by
  cases hsize : c.size type v with
  | ok n =>
    rw [encode_of_size hsize] at h
    cases h
  | error e' =>
    rw [encode, hsize, error_bind] at h
    cases h
    rfl

/-- What is read from a tree has the shape of its layout. So it is measured and encoded, unless it
breaks a limit: a number is out of range, a length is not the one of the layout, a count is too
large or structs stand too deep. Where no narrow float is and no container is overfull, decoding
gives back the value that was read from the tree. -/
theorem trees_fail_at_limits_only (doc : Document) (hdoc : doc.check = .ok ()) :
    ∃ c, Codec.ofDocument doc = .ok c ∧
      ∀ type tree v, c.valueOfJson type tree = .ok v →
        OnlyLimits (c.size type v) ∧ OnlyLimits (c.encode type v) ∧
        (Scalar.f32 ∉ c.layouts.scalars → ¬ Slot.Crowded c.layouts (.embedded type, v) →
          ∀ bs, c.encode type v = .ok bs → c.decode type bs = .ok v) := by
  obtain ⟨shapes, hsound, hlayout, _⟩ := Document.shaped_of_check hdoc
  have hd := doc.fieldsDiffer_layoutOf hsound
  refine ⟨ofLayout (doc.layoutOf shapes), by rw [ofDocument, hlayout], ?_⟩
  intro type tree v hv
  have hconforms : Conforms (doc.layoutOf shapes) (.embedded type) v :=
    conforms_of_valueOfJson (c := ofLayout (doc.layoutOf shapes)) hd hv
  have hsize : OnlyLimits ((ofLayout (doc.layoutOf shapes)).size type v) :=
    hconforms.onlyLimits_size maxDepth (.start type)
  refine ⟨hsize, fun e he => hsize e (size_of_encode_error he), fun hwide hroom bs hbs => ?_⟩
  have hexact := hconforms.floatsExact hwide List.not_mem_nil
  rw [decode_of_encode hbs hexact hroom, hconforms.normal_eq hd]

/-- A document of one struct, with a map from small numbers to truth values and a number that may
be absent. -/
def switchDocument : Document :=
  ⟨"p", [⟨"S", none, [⟨"M", ⟨.map, some (.ofKind .bool), some (.ofKind .uint8), 0, none⟩⟩,
    ⟨"N", ⟨.pointer, some (.ofKind .int16), none, 0, none⟩⟩]⟩]⟩

def switchLayout : DocumentLayout :=
  ⟨1, "p", .little,
    [⟨"S", [⟨"M", .map (.fixed .u8) (.fixed .bool)⟩, ⟨"N", .nullable .i16⟩]⟩]⟩

def switchValue (key : UInt64) : Value :=
  .struct [("M", .map [(.uint key, .bool true)]), ("N", .null)]

theorem not_crowded_switch : ¬ Slot.Crowded switchLayout (.embedded "S", switchValue 7) := by
  rw [Slot.crowded_embedded rfl]
  rintro ⟨f, hf, x, hx, hcrowded⟩
  rcases List.mem_pair.1 hf with rfl | rfl
  · cases hx
    rcases Slot.crowded_map.1 hcrowded with ⟨_, hmany⟩ | ⟨e, _, hkey | hvalue⟩
    · exact absurd hmany (by decide)
    · exact absurd hkey (Slot.not_crowded_of_plain trivial)
    · exact absurd hvalue (Slot.not_crowded_of_plain trivial)
  · exact absurd hcrowded (Slot.not_crowded_of_plain trivial)

/-- A map under the key 7 comes back without the number that is not there. Under the key 300 it is
read just as well, and then the key is out of range. -/
theorem a_large_key_fails_at_its_range :
    switchDocument.check = .ok () ∧ ∃ c, Codec.ofDocument switchDocument = .ok c ∧
      c.valueOfJson "S" (.obj [("M", .obj [("7", .bool true)])]) = .ok (switchValue 7) ∧
      c.encode "S" (switchValue 7) = .ok [1, 0, 0, 0, 7, 1, 0] ∧
      c.decode "S" [1, 0, 0, 0, 7, 1, 0] = .ok (switchValue 7) ∧
      c.valueOfJson "S" (.obj [("M", .obj [("300", .bool true)])]) = .ok (switchValue 300) ∧
      ∃ path, c.encode "S" (switchValue 300) = .error (.outOfRange path .u8 300) ∧
        (WireError.outOfRange path .u8 300).IsLimit := by
  have hdoc : switchDocument.check = .ok () := by rfl
  obtain ⟨c, hc, hall⟩ := trees_fail_at_limits_only switchDocument hdoc
  obtain rfl : c = ofLayout switchLayout := Except.ok.inj (hc.symm.trans (by rfl))
  have hsmall : (ofLayout switchLayout).valueOfJson "S" (.obj [("M", .obj [("7", .bool true)])]) =
      .ok (switchValue 7) := by rfl
  have hlarge : (ofLayout switchLayout).valueOfJson "S"
      (.obj [("M", .obj [("300", .bool true)])]) = .ok (switchValue 300) := by rfl
  have hbytes : (ofLayout switchLayout).encode "S" (switchValue 7) =
      .ok [1, 0, 0, 0, 7, 1, 0] := by rfl
  have hrange : (ofLayout switchLayout).encode "S" (switchValue 300) =
      .error (.outOfRange (((Path.start "S").field "M").index 0) .u8 300) := by rfl
  obtain ⟨_, _, hback⟩ := hall "S" _ _ hsmall
  obtain ⟨_, hlimits, _⟩ := hall "S" _ _ hlarge
  exact ⟨hdoc, _, hc, hsmall, hbytes, hback (by decide) not_crowded_switch _ hbytes, hlarge,
    _, hrange, hlimits _ hrange⟩

end Codec

end WireSchema
