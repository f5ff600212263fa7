-- Which values fit a layout: the judgement behind measuring and writing. A value has a size
-- exactly when it fits, and its size is the length of its form.
import WireSchema.Proofs.Wire.Agreement

namespace WireSchema.Wire

open Outcome

/-- A value fits a layout, with structs inside each other down to a depth. -/
inductive Fits (d : DocumentLayout) : Nat → Layout → Value → Prop
  | fixed {room : Nat} {scalar : Scalar} {v : Value} {bs : List UInt8} :
      scalar.bytes v = .ok bs → Fits d room (.fixed scalar) v
  | absent {room : Nat} {scalar : Scalar} : Fits d room (.nullable scalar) .null
  | present {room : Nat} {scalar : Scalar} {v : Value} {bs : List UInt8} :
      v ≠ .null → scalar.bytes v = .ok bs → Fits d room (.nullable scalar) v
  | string {room : Nat} {s : String} :
      (Text.bytes s).length < UInt32.size → Fits d room .string (.string s)
  | fixedBytes {room : Nat} {len : UInt32} {bs : List UInt8} :
      bs.length = len.toNat → Fits d room (.fixedBytes len) (.bytes bs)
  | dynamicBytes {room : Nat} {bs : List UInt8} :
      bs.length < UInt32.size → Fits d room .dynamicBytes (.bytes bs)
  | fixedArray {room : Nat} {len : UInt32} {elem : Layout} {xs : List Value} :
      xs.length = len.toNat → (∀ x ∈ xs, Fits d room elem x) →
      Fits d room (.fixedArray len elem) (.array xs)
  | dynamicArray {room : Nat} {elem : Layout} {xs : List Value} :
      xs.length < UInt32.size → (∀ x ∈ xs, Fits d room elem x) →
      Fits d room (.dynamicArray elem) (.array xs)
  | map {room : Nat} {key value : Layout} {es : List (Value × Value)} :
      es.length < UInt32.size → (∀ e ∈ es, Fits d room key e.1) →
      (∀ e ∈ es, Fits d room value e.2) → Fits d room (.map key value) (.map es)
  /-- A struct has every field of its layout, and no other. -/
  | struct {room : Nat} {type : String} {s : StructLayout} {given : List (String × Value)} :
      d.get? type = some s → (∀ f ∈ given, ∃ g ∈ s.fields, g.name = f.1) →
      (∀ f ∈ s.fields, ∃ x, given.lookup f.name = some x) →
      (∀ f ∈ s.fields, ∀ x, given.lookup f.name = some x → Fits d room f.layout x) →
      Fits d (room + 1) (.embedded type) (.struct given)

variable {d : DocumentLayout} {room : Nat}

/-- Numbered parts have a size exactly when each fits, if that is so for one. -/
theorem sumSizes_isOk_iff {α : Type} {size : Nat → α → Except WireError Nat} {P : α → Prop}
    {xs : List α} (h : ∀ i, ∀ x ∈ xs, (∃ n, size i x = .ok n) ↔ P x) :
    (∃ n, sumSizes size xs = .ok n) ↔ ∀ x ∈ xs, P x := by
  constructor
  · rintro ⟨n, hn⟩ x hx
    obtain ⟨i, m, hm⟩ := size_of_sumSizes hn hx
    exact (h i x hx).1 ⟨m, hm⟩
  · intro hall
    refine sumSizes_isOk.2 fun x hx => ?_
    have hmem := List.fst_mem_of_mem_zipIdx hx
    exact (h x.2 x.1 hmem).2 (hall x.1 hmem)

/-- A value has a size exactly when it fits, if that is so for the structs in it. -/
theorem size_isOk_of_structs
    (h : ∀ type v path,
      (∃ n, structSize d room type v path = .ok n) ↔ Fits d room (.embedded type) v)
    (l : Layout) (v : Value) (path : Path) :
    (∃ n, size (structSize d room) l v path = .ok n) ↔ Fits d room l v := by
  induction l generalizing v path with
  | fixed scalar =>
    simp only [size, bind_eq_ok, scalarBytes_eq_ok]
    constructor
    · rintro ⟨n, bs, hbs, -⟩
      exact .fixed hbs
    · intro h
      cases h with
      | fixed hbs => exact ⟨_, _, hbs, rfl⟩
  | nullable scalar =>
    have hpresent : (∃ n, (do
        let _ ← scalarBytes scalar v path
        return flagWidth + scalar.width) = .ok n) ↔ ∃ bs, scalar.bytes v = .ok bs := by
      simp only [bind_eq_ok, scalarBytes_eq_ok, pure_eq_ok]
      constructor
      · rintro ⟨n, bs, hbs, -⟩
        exact ⟨bs, hbs⟩
      · rintro ⟨bs, hbs⟩
        exact ⟨_, bs, hbs, rfl⟩
    have hfits (hv : v ≠ .null) :
        Fits d room (.nullable scalar) v ↔ ∃ bs, scalar.bytes v = .ok bs := by
      constructor
      · intro h
        cases h with
        | absent => exact absurd rfl hv
        | present _ hbs => exact ⟨_, hbs⟩
      · rintro ⟨bs, hbs⟩
        exact .present hv hbs
    cases v with
    | null => exact ⟨fun _ => .absent, fun _ => ⟨_, rfl⟩⟩
    | _ => exact hpresent.trans (hfits (by simp)).symm
  | string =>
    simp only [size, bind_eq_ok, text_eq_ok, count_eq_ok, pure_eq_ok]
    constructor
    · rintro ⟨n, bs, ⟨s, rfl, rfl⟩, m, ⟨hlen, -⟩, -⟩
      exact .string hlen
    · intro h
      cases h with
      | string hlen => exact ⟨_, _, ⟨_, rfl, rfl⟩, _, ⟨hlen, rfl⟩, rfl⟩
  | fixedBytes len =>
    simp only [size, bind_eq_ok, block_eq_ok, pure_eq_ok]
    constructor
    · rintro ⟨n, bs, rfl, ⟨⟩, hlen, -⟩
      exact .fixedBytes (exactLen_eq_ok.1 hlen)
    · intro h
      cases h with
      | fixedBytes hlen => exact ⟨_, _, rfl, (), exactLen_eq_ok.2 hlen, rfl⟩
  | dynamicBytes =>
    simp only [size, bind_eq_ok, block_eq_ok, count_eq_ok, pure_eq_ok]
    constructor
    · rintro ⟨n, bs, rfl, m, ⟨hlen, -⟩, -⟩
      exact .dynamicBytes hlen
    · intro h
      cases h with
      | dynamicBytes hlen => exact ⟨_, _, rfl, _, ⟨hlen, rfl⟩, rfl⟩
  | fixedArray len elem ih =>
    simp only [size, bind_eq_ok, items_eq_ok]
    constructor
    · rintro ⟨n, xs, rfl, ⟨⟩, hlen, hsum⟩
      exact .fixedArray (exactLen_eq_ok.1 hlen)
        ((sumSizes_isOk_iff fun i x _ => ih x (path.index i)).1 ⟨n, hsum⟩)
    · intro h
      cases h with
      | fixedArray hlen hall =>
        obtain ⟨n, hsum⟩ := (sumSizes_isOk_iff fun i x _ => ih x (path.index i)).2 hall
        exact ⟨n, _, rfl, (), exactLen_eq_ok.2 hlen, hsum⟩
  | dynamicArray elem ih =>
    simp only [size, bind_eq_ok, items_eq_ok, count_eq_ok, pure_eq_ok]
    constructor
    · rintro ⟨n, xs, rfl, _, ⟨hlen, -⟩, m, hsum, -⟩
      exact .dynamicArray hlen ((sumSizes_isOk_iff fun i x _ => ih x (path.index i)).1 ⟨m, hsum⟩)
    · intro h
      cases h with
      | dynamicArray hlen hall =>
        obtain ⟨n, hsum⟩ := (sumSizes_isOk_iff fun i x _ => ih x (path.index i)).2 hall
        exact ⟨_, _, rfl, _, ⟨hlen, rfl⟩, n, hsum, rfl⟩
  | map key value ihk ihv =>
    have hentry (i : Nat) (e : Value × Value) : (∃ n, (do
        return (← size (structSize d room) key e.1 (path.index i)) +
          (← size (structSize d room) value e.2 (path.index i))) = .ok n) ↔
        Fits d room key e.1 ∧ Fits d room value e.2 := by
      rw [← ihk e.1 (path.index i), ← ihv e.2 (path.index i)]
      simp only [bind_eq_ok, pure_eq_ok]
      constructor
      · rintro ⟨n, a, ha, b, hb, -⟩
        exact ⟨⟨a, ha⟩, ⟨b, hb⟩⟩
      · rintro ⟨⟨a, ha⟩, ⟨b, hb⟩⟩
        exact ⟨_, a, ha, b, hb, rfl⟩
    simp only [size, bind_eq_ok, entries_eq_ok, count_eq_ok]
    constructor
    · rintro ⟨n, es, rfl, _, ⟨hlen, -⟩, m, hsum, -⟩
      have hall := (sumSizes_isOk_iff fun i e _ => hentry i e).1 ⟨m, hsum⟩
      exact .map hlen (fun e he => (hall e he).1) fun e he => (hall e he).2
    · intro h
      cases h with
      | map hlen hkeys hvalues =>
        obtain ⟨n, hsum⟩ := (sumSizes_isOk_iff fun i e _ => hentry i e).2 fun e he =>
          ⟨hkeys e he, hvalues e he⟩
        exact ⟨_, _, rfl, _, ⟨hlen, rfl⟩, n, hsum, rfl⟩
  | embedded type => exact h type v path

theorem structSize_isOk (room : Nat) (type : String) (v : Value) (path : Path) :
    (∃ n, structSize d room type v path = .ok n) ↔ Fits d room (.embedded type) v := by
  induction room generalizing type v path with
  | zero =>
    constructor
    · rintro ⟨n, ⟨⟩⟩
    · rintro ⟨⟩
  | succ room ih =>
    have hvalues (fields : List (FieldLayout × Value)) :
        (∃ n, sumSizes (fun _ f => size (structSize d room) f.1.layout f.2
          (path.field f.1.name)) fields = .ok n) ↔
        ∀ f ∈ fields, Fits d room f.1.layout f.2 :=
      sumSizes_isOk_iff fun _ f _ => size_isOk_of_structs ih f.1.layout f.2 (path.field f.1.name)
    simp only [structSize, bind_eq_ok, lookup_eq_ok, fieldValues_eq_ok]
    constructor
    · rintro ⟨n, s, hs, fields, ⟨⟨given, rfl, hknown⟩, hall, rfl⟩, hsum⟩
      refine .struct hs hknown hall fun f hf x hx => ?_
      have hfit := (hvalues _).1 ⟨n, hsum⟩ _ (List.mem_map_of_mem hf)
      rwa [show Value.field? (.struct given) f.name = some x from hx] at hfit
    · intro h
      cases h with
      | @struct _ _ s given hs hknown hall hfits =>
        have hfields : ∀ f ∈ s.fields.map fun f =>
            (f, (Value.field? (.struct given) f.name).getD .null), Fits d room f.1.layout f.2 := by
          intro f hf
          obtain ⟨g, hg, rfl⟩ := List.mem_map.1 hf
          obtain ⟨x, hx⟩ := hall g hg
          rw [show Value.field? (.struct given) g.name = some x from hx]
          exact hfits g hg x hx
        obtain ⟨n, hsum⟩ := (hvalues _).2 hfields
        exact ⟨n, s, hs, _, ⟨⟨given, rfl, hknown⟩, hall, rfl⟩, hsum⟩

/-- A value has a size exactly when it fits, and then the size is the length of its form. -/
theorem size_eq_ok_iff {l : Layout} {v : Value} {path : Path} {n : Nat} :
    size (structSize d room) l v path = .ok n ↔ Fits d room l v ∧ n = (v.form d l).length := by
  have hisOk := size_isOk_of_structs (structSize_isOk (d := d) room) l v path
  have hagree := agree_write (agree_writeStruct d room) l v path
  rw [← hisOk]
  constructor
  · intro hn
    rw [hn] at hagree
    exact ⟨⟨n, hn⟩, hagree.2.2.symm⟩
  · rintro ⟨⟨m, hm⟩, rfl⟩
    rw [hm] at hagree
    rw [hm, hagree.2.2]

end WireSchema.Wire

namespace WireSchema.Codec

open Wire

/-- The codec measures the values that fit, by their forms. -/
theorem size_eq_ok_iff {c : Codec} {type : String} {v : Value} {n : Nat} :
    c.size type v = .ok n ↔
      Fits c.layouts maxDepth (.embedded type) v ∧
        n = (v.form c.layouts (.embedded type)).length := by
  change Wire.size (structSize c.layouts maxDepth) (.embedded type) v (.start type) = .ok n ↔ _
  exact Wire.size_eq_ok_iff

/-- The codec encodes the values that fit, as their forms. -/
theorem encode_eq_ok_iff {c : Codec} {type : String} {v : Value} {bs : List UInt8} :
    c.encode type v = .ok bs ↔
      Fits c.layouts maxDepth (.embedded type) v ∧ bs = v.form c.layouts (.embedded type) := by
  constructor
  · intro h
    obtain ⟨n, hn, _⟩ := Outcome.bind_eq_ok.1 h
    rw [encode_of_size hn] at h
    exact ⟨(size_eq_ok_iff.1 hn).1, (Except.ok.inj h).symm⟩
  · rintro ⟨hfits, rfl⟩
    exact encode_of_size (size_eq_ok_iff.2 ⟨hfits, rfl⟩)

end WireSchema.Codec
