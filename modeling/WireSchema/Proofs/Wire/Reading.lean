-- Reading from a place that holds the form of a value: the reader gives the normal form and
-- goes on behind the form. The only frontier is the most elements without bytes that a reader
-- accepts: beyond it a value is written, and reading it back is refused.
import WireSchema.Proofs.Wire.MinWidth
import WireSchema.Proofs.Wire.Normal
import WireSchema.Proofs.Wire.Slot

namespace WireSchema

open Outcome

/-! ## The frontier -/

namespace Slot

/-- A scalar that reading gives back as it was. -/
def Exact : Slot → Prop
  | (.fixed scalar, v) => scalar.Exact v
  | (.nullable scalar, v) => v = .null ∨ scalar.Exact v
  | _ => True

/-- A counted container of more parts than a reader accepts when they take no bytes. -/
def Overfull (d : DocumentLayout) : Slot → Prop
  | (.dynamicArray elem, .array xs) => d.minWidth elem = 0 ∧ maxEmptyElements < xs.length
  | (.map key value, .map es) =>
    Width.saturatingAdd (d.minWidth key) (d.minWidth value) = 0 ∧ maxEmptyElements < es.length
  | _ => False

/-- Every float in a slot is given back as it was. -/
def FloatsExact (d : DocumentLayout) (a : Slot) : Prop := EveryPart d Exact a

/-- Some container in a slot is overfull. -/
def Crowded (d : DocumentLayout) (a : Slot) : Prop := SomePart d (Overfull d) a

variable {d : DocumentLayout}

theorem not_crowded_of_plain {l : Layout} {v : Value} (h : l.Plain) : ¬ Crowded d (l, v) := by
  rw [Crowded, somePart_iff_of_alone fun b => not_holds_of_plain h]
  cases l with
  | dynamicArray | map => cases h
  | _ => exact id

theorem crowded_fixedArray {len : UInt32} {elem : Layout} {xs : List Value} :
    Crowded d (.fixedArray len elem, .array xs) ↔ ∃ x ∈ xs, Crowded d (elem, x) := by
  rw [Crowded, somePart_iff]
  constructor
  · rintro (⟨⟨⟩⟩ | ⟨b, hb, hcrowded⟩)
    cases hb with
    | fixedItem hx => exact ⟨_, hx, hcrowded⟩
  · rintro ⟨x, hx, hcrowded⟩
    exact Or.inr ⟨_, .fixedItem hx, hcrowded⟩

theorem crowded_dynamicArray {elem : Layout} {xs : List Value} :
    Crowded d (.dynamicArray elem, .array xs) ↔
      Overfull d (.dynamicArray elem, .array xs) ∨ ∃ x ∈ xs, Crowded d (elem, x) := by
  rw [Crowded, somePart_iff]
  refine or_congr_right ⟨?_, ?_⟩
  · rintro ⟨b, hb, hcrowded⟩
    cases hb with
    | item hx => exact ⟨_, hx, hcrowded⟩
  · rintro ⟨x, hx, hcrowded⟩
    exact ⟨_, .item hx, hcrowded⟩

theorem crowded_map {key value : Layout} {es : List (Value × Value)} :
    Crowded d (.map key value, .map es) ↔
      Overfull d (.map key value, .map es) ∨
        ∃ e ∈ es, Crowded d (key, e.1) ∨ Crowded d (value, e.2) := by
  rw [Crowded, somePart_iff]
  refine or_congr_right ⟨?_, ?_⟩
  · rintro ⟨b, hb, hcrowded⟩
    cases hb with
    | key he => exact ⟨_, he, Or.inl hcrowded⟩
    | value he => exact ⟨_, he, Or.inr hcrowded⟩
  · rintro ⟨e, he, hcrowded | hcrowded⟩
    · exact ⟨_, .key he, hcrowded⟩
    · exact ⟨_, .value he, hcrowded⟩

theorem crowded_embedded {type : String} {s : StructLayout} {v : Value}
    (hs : d.get? type = some s) : Crowded d (.embedded type, v) ↔
      ∃ f ∈ s.fields, ∃ x, v.field? f.name = some x ∧ Crowded d (f.layout, x) := by
  rw [Crowded, somePart_iff]
  constructor
  · rintro (⟨⟨⟩⟩ | ⟨b, hb, hcrowded⟩)
    cases hb with
    | field hs' hf hx =>
      rw [hs] at hs'
      cases hs'
      exact ⟨_, hf, _, hx, hcrowded⟩
  · rintro ⟨f, hf, x, hx, hcrowded⟩
    exact Or.inr ⟨_, .field hs hf hx, hcrowded⟩

end Slot

/-! ## Places that hold bytes -/

theorem Text.ofBytes?_bytes (s : String) : Text.ofBytes? (Text.bytes s) = some s := by
  have hbytes : ByteArray.mk (Text.bytes s).toArray = s.toByteArray := by simp [Text.bytes]
  rw [Text.ofBytes?, hbytes, String.fromUTF8?, dif_pos s.isValidUTF8]
  rfl

namespace Wire

namespace Input

/-- The bytes from a place on start with the given ones. -/
def Holds (input : Input) (bs : List UInt8) : Prop :=
  bs <+: input.rest ∧ input.offset + input.rest.length = input.len

variable {input : Input} {as bs : List UInt8}

theorem advance_advance (m n : Nat) : (input.advance m).advance n = input.advance (m + n) := by
  simp [advance, Nat.add_assoc]

theorem holds_ofBuffer (before bs after : List UInt8) :
    (ofBuffer (before ++ bs ++ after) before.length).Holds bs := by
  have hrest : (before ++ bs ++ after).drop before.length = bs ++ after := by
    rw [List.append_assoc, List.drop_left]
  unfold Holds ofBuffer
  rw [hrest]
  refine ⟨List.prefix_append bs after, ?_⟩
  simp only [List.length_append]
  omega

theorem Holds.append (h : input.Holds (as ++ bs)) :
    input.Holds as ∧ (input.advance as.length).Holds bs := by
  obtain ⟨⟨tail, htail⟩, hlen⟩ := h
  refine ⟨⟨⟨bs ++ tail, by rw [← htail, List.append_assoc]⟩, hlen⟩, ⟨tail, ?_⟩, ?_⟩
  · rw [advance, ← htail, List.append_assoc, List.drop_left]
  · rw [← htail] at hlen
    simp only [List.length_append] at hlen
    simp only [advance, ← htail, List.append_assoc, List.drop_left, List.length_append]
    omega

theorem Holds.require (h : input.Holds bs) {need : Nat} (hneed : need ≤ bs.length) (path : Path) :
    input.require need path = .ok () := by
  obtain ⟨hstart, hlen⟩ := h
  have := hstart.length_le
  exact if_pos (by omega)

theorem Holds.take (h : input.Holds bs) (path : Path) :
    input.take bs.length path = .ok (bs, input.advance bs.length) := by
  obtain ⟨tail, htail⟩ := h.1
  rw [Input.take, h.require (Nat.le_refl _) path, ok_bind, ← htail, List.take_left]
  rfl

end Input

/-! ## Reading parts -/

/-- A reader gives a value and goes on at a place, unless it meets an overfull container. -/
def Reads {α : Type} (r : Except WireError (α × Input)) (x : α) (next : Input) (crowded : Prop) :
    Prop :=
  (¬ crowded ∧ r = .ok (x, next)) ∨ (crowded ∧ ∃ path n, r = .error (.countLimit path n))

namespace Reads

variable {α β : Type} {r : Except WireError (α × Input)} {x : α} {y : β} {next last : Input}
  {p q : Prop}

theorem of_ok (h : ¬ p) : Reads (.ok (x, next)) x next p := Or.inl ⟨h, rfl⟩

theorem bind {f : α × Input → Except WireError (β × Input)} (hr : Reads r x next p)
    (hf : Reads (f (x, next)) y last q) : Reads (r >>= f) y last (p ∨ q) := by
  rcases hr with ⟨hp, rfl⟩ | ⟨hp, path, n, rfl⟩
  · rcases hf with ⟨hq, hf⟩ | ⟨hq, hf⟩
    · exact Or.inl ⟨not_or.2 ⟨hp, hq⟩, hf⟩
    · exact Or.inr ⟨Or.inr hq, hf⟩
  · exact Or.inr ⟨Or.inl hp, path, n, rfl⟩

theorem congr (hr : Reads r x next p) (h : p ↔ q) : Reads r x next q := by
  rwa [Reads, ← h]

/-- A reader that ends by giving its value in another shape. -/
theorem map {g : α → β} (hr : Reads r x next p) :
    Reads (do let (x, input) ← r; return (g x, input)) (g x) next p := by
  rcases hr with ⟨hp, rfl⟩ | ⟨hp, path, n, rfl⟩
  · exact Or.inl ⟨hp, rfl⟩
  · exact Or.inr ⟨hp, path, n, rfl⟩

end Reads

variable {input : Input} {bs : List UInt8}

theorem readScalar_of_holds {scalar : Scalar} {v : Value} (hbs : scalar.bytes v = .ok bs)
    (hexact : scalar.Exact v) (h : input.Holds bs) (path : Path) :
    readScalar scalar path input = .ok (scalar.normal v, input.advance bs.length) := by
  have htake := h.take path
  rw [Scalar.length_bytes hbs] at htake ⊢
  rw [readScalar, htake, ← Scalar.ofBits_bytes hbs hexact]
  rfl

theorem readCount_of_holds {n : Nat} (hn : n < UInt32.size)
    (h : input.Holds (countForm n)) (path : Path) :
    readCount path input = .ok (n, input.advance countWidth) := by
  have htake := h.take path
  rw [length_countForm] at htake
  rw [readCount, htake]
  change Except.ok (Bytes.ofLittle (Bytes.little countWidth n), _) = _
  rw [Bytes.ofLittle_little hn]

theorem readCounted_of_holds (hlen : bs.length < UInt32.size)
    (h : input.Holds (countForm bs.length ++ bs)) (path : Path) :
    readCounted path input = .ok (bs, input.advance (countForm bs.length ++ bs).length) := by
  obtain ⟨hcount, hbs⟩ := h.append
  rw [length_countForm] at hbs
  rw [readCounted, readCount_of_holds hlen hcount]
  change (input.advance countWidth).take bs.length path = _
  rw [hbs.take, Input.advance_advance, List.length_append, length_countForm]

/-- The count of elements is believed when the bytes that it announces are there. -/
theorem readElementCount_of_holds {n : Nat} {width : UInt64} (hn : n < UInt32.size)
    (h : input.Holds (countForm n ++ bs)) (hwidth : width.toNat * n ≤ bs.length) (path : Path) :
    Reads (readElementCount width path input) n (input.advance countWidth)
      (width = 0 ∧ maxEmptyElements < n) := by
  obtain ⟨hcount, hbs⟩ := h.append
  rw [length_countForm] at hbs
  rw [readElementCount, readCount_of_holds hn hcount, ok_bind]
  by_cases hzero : width = 0
  · by_cases hmany : maxEmptyElements < n
    · exact Or.inr ⟨⟨hzero, hmany⟩, path, n, by simp [hzero, hmany]; rfl⟩
    · refine Or.inl ⟨fun h => hmany h.2, ?_⟩
      simp [hzero, hmany]
      rfl
  · have hneed : (Width.saturate (width.toNat * n)).toNat ≤ bs.length := by
      rw [Width.toNat_saturate]
      omega
    refine Or.inl ⟨fun h => hzero h.1, ?_⟩
    simp only [hzero, if_false, hbs.require hneed path]
    rfl

/-- Numbered parts are read one after the other when each of them is. -/
theorem readMany_of_holds {α β : Type} {read : Nat → Input → Except WireError (β × Input)}
    {form : α → List UInt8} {value : α → β} {crowded : α → Prop} {xs : List α}
    (h : ∀ x ∈ xs, ∀ i input, Input.Holds input (form x) →
      Reads (read i input) (value x) (input.advance (form x).length) (crowded x))
    (i : Nat) (seen : List β) (input : Input) (hinput : input.Holds (xs.flatMap form)) :
    Reads (readMany read xs.length i seen input) (seen.reverse ++ xs.map value)
      (input.advance (xs.flatMap form).length) (∃ x ∈ xs, crowded x) := by
  induction xs generalizing i seen input with
  | nil =>
    have hlast : input.advance 0 = input := by simp [Input.advance]
    simp only [List.flatMap_nil, List.length_nil, hlast, List.map_nil, List.append_nil]
    exact .of_ok (by simp)
  | cons x xs ih =>
    rw [List.flatMap_cons] at hinput ⊢
    obtain ⟨hx, hxs⟩ := hinput.append
    have hrest := ih (fun y hy => h y (List.mem_cons_of_mem x hy)) (i + 1) (value x :: seen) _ hxs
    rw [Input.advance_advance, ← List.length_append, List.reverse_cons, List.append_assoc] at hrest
    refine (Reads.congr ?_ (p := crowded x ∨ ∃ y ∈ xs, crowded y) (by simp))
    have hread : readMany read (x :: xs).length i seen input =
        (read i input >>= fun r => readMany read xs.length (i + 1) (r.1 :: seen) r.2) := by
      rw [List.length_cons, readMany]
      cases read i input <;> rfl
    rw [hread]
    exact (h x (List.mem_cons_self ..) i input hx).bind hrest

theorem readFields_of_holds {read : FieldLayout → Input → Except WireError (Value × Input)}
    {form : FieldLayout → List UInt8} {value : FieldLayout → Value}
    {crowded : FieldLayout → Prop} {fields : List FieldLayout}
    (h : ∀ f ∈ fields, ∀ input, Input.Holds input (form f) →
      Reads (read f input) (value f) (input.advance (form f).length) (crowded f))
    (input : Input) (hinput : input.Holds (fields.flatMap form)) :
    Reads (readFields read fields input) (fields.map fun f => (f.name, value f))
      (input.advance (fields.flatMap form).length) (∃ f ∈ fields, crowded f) := by
  induction fields generalizing input with
  | nil =>
    have hlast : input.advance 0 = input := by simp [Input.advance]
    simp only [List.flatMap_nil, List.length_nil, hlast]
    exact .of_ok (by simp)
  | cons f fields ih =>
    rw [List.flatMap_cons] at hinput ⊢
    obtain ⟨hf, hfields⟩ := hinput.append
    have hrest := ih (fun g hg => h g (List.mem_cons_of_mem f hg)) _ hfields
    rw [Input.advance_advance, ← List.length_append] at hrest
    refine (Reads.congr ?_ (p := crowded f ∨ ∃ g ∈ fields, crowded g) (by simp))
    exact (h f (List.mem_cons_self ..) input hf).bind hrest.map

/-! ## Reading values -/

/-- A counted container is read when its parts are, unless there are too many without bytes. -/
theorem readCountedMany_of_holds {α β : Type} {read : Nat → Input → Except WireError (β × Input)}
    {form : α → List UInt8} {value : α → β} {crowded : α → Prop} {xs : List α} {width : UInt64}
    {wrap : List β → Value} (hlen : xs.length < UInt32.size)
    (hwidth : ∀ x ∈ xs, width.toNat ≤ (form x).length)
    (h : ∀ x ∈ xs, ∀ i input, Input.Holds input (form x) →
      Reads (read i input) (value x) (input.advance (form x).length) (crowded x))
    (path : Path) (hinput : input.Holds (countForm xs.length ++ xs.flatMap form)) :
    Reads (do
        let (n, input) ← readElementCount width path input
        let (ys, input) ← readMany read n 0 [] input
        return (wrap ys, input))
      (wrap (xs.map value)) (input.advance (countForm xs.length ++ xs.flatMap form).length)
      ((width = 0 ∧ maxEmptyElements < xs.length) ∨ ∃ x ∈ xs, crowded x) := by
  have hcount := readElementCount_of_holds hlen hinput (Layout.mul_le_length_flatMap hwidth) path
  have hparts := hinput.append.2
  rw [length_countForm] at hparts
  have hmany := readMany_of_holds h 0 [] _ hparts
  rw [List.reverse_nil, List.nil_append, Input.advance_advance] at hmany
  rw [List.length_append, length_countForm]
  exact hcount.bind hmany.map

/-- A value is read back from its form as its normal form, unless it is crowded. -/
theorem Fits.read {d : DocumentLayout} {room : Nat} {l : Layout} {v : Value} (h : Fits d room l v)
    (hexact : Slot.FloatsExact d (l, v)) (path : Path) (input : Input)
    (hinput : input.Holds (v.form d l)) :
    Reads (Wire.read d.minWidths (readStruct d d.minWidths room) l path input) (v.normal d l)
      (input.advance (v.form d l).length) (Slot.Crowded d (l, v)) := by
  induction h generalizing path input with
  | fixed hbs =>
    have hown : Scalar.Exact _ _ := hexact.self
    rw [Value.form, Scalar.form_eq hbs] at hinput ⊢
    rw [Wire.read, readScalar_of_holds hbs hown hinput, Value.normal]
    exact .inl ⟨Slot.not_crowded_of_plain trivial, rfl⟩
  | absent =>
    have hflag : input.take flagWidth path = _ := hinput.take path
    rw [Wire.read, hflag]
    exact .inl ⟨Slot.not_crowded_of_plain trivial, rfl⟩
  | @present _ scalar v _ hne hbs =>
    have hown : scalar.Exact v := hexact.self.resolve_left hne
    rw [Value.form_present hne, Scalar.form_eq hbs] at hinput ⊢
    have hparts : input.Holds ([1] ++ _) := hinput
    obtain ⟨hflag, hscalar⟩ := hparts.append
    have hread := readScalar_of_holds hbs hown hscalar path
    rw [Input.advance_advance] at hread
    rw [Value.normal_present hne, List.length_cons, Nat.add_comm]
    refine .inl ⟨Slot.not_crowded_of_plain trivial, ?_⟩
    rw [Wire.read, show input.take flagWidth path = _ from hflag.take path]
    exact hread
  | @string _ s hlen =>
    rw [Value.form] at hinput ⊢
    rw [Wire.read, readCounted_of_holds hlen hinput]
    refine .inl ⟨Slot.not_crowded_of_plain trivial, ?_⟩
    rw [ok_bind]
    simp only [Text.ofBytes?_bytes]
    rfl
  | fixedBytes hlen =>
    rw [Value.form] at hinput ⊢
    rw [Wire.read, ← hlen, hinput.take]
    exact .inl ⟨Slot.not_crowded_of_plain trivial, rfl⟩
  | dynamicBytes hlen =>
    rw [Value.form] at hinput ⊢
    rw [Wire.read, readCounted_of_holds hlen hinput]
    exact .inl ⟨Slot.not_crowded_of_plain trivial, rfl⟩
  | @fixedArray _ len elem xs hlen _ ih =>
    simp only [Value.form, Value.formItems_eq, Value.normal, Value.normalItems_eq] at hinput ⊢
    have hitem : ∀ x ∈ xs, ∀ i input, Input.Holds input (x.form d elem) →
        Reads (Wire.read d.minWidths (readStruct d d.minWidths _) elem (path.index i) input)
          (x.normal d elem) (input.advance (x.form d elem).length) (Slot.Crowded d (elem, x)) :=
      fun x hx i => ih x hx (hexact.held (.fixedItem hx)) (path.index i)
    have hmany := readMany_of_holds hitem 0 [] input hinput
    rw [List.reverse_nil, List.nil_append, hlen] at hmany
    exact hmany.map.congr Slot.crowded_fixedArray.symm
  | @dynamicArray _ elem xs hlen hall ih =>
    simp only [Value.form, Value.formItems_eq, Value.normal, Value.normalItems_eq] at hinput ⊢
    refine (readCountedMany_of_holds hlen ?_ ?_ path hinput).congr Slot.crowded_dynamicArray.symm
    · exact fun x hx => DocumentLayout.minWidth_le_length_form (hall x hx)
    · exact fun x hx i input => ih x hx (hexact.held (.item hx)) (path.index i) input
  | @map _ key value es hlen hkeys hvalues ihk ihv =>
    simp only [Value.form, Value.formEntries_eq, Value.normal, Value.normalEntries_eq] at hinput ⊢
    refine (readCountedMany_of_holds hlen ?_ ?_ path hinput).congr Slot.crowded_map.symm
    · intro e he
      have hkey := DocumentLayout.minWidth_le_length_form (hkeys e he)
      have hvalue := DocumentLayout.minWidth_le_length_form (hvalues e he)
      rw [Width.saturatingAdd, Width.toNat_saturate, List.length_append]
      unfold DocumentLayout.minWidth at hkey hvalue
      omega
    · intro e he i input hentry
      obtain ⟨hkey, hvalue⟩ := hentry.append
      have hreadKey := ihk e he (hexact.held (.key he)) (path.index i) input hkey
      have hreadValue := ihv e he (hexact.held (.value he)) (path.index i) _ hvalue
      rw [Input.advance_advance, ← List.length_append] at hreadValue
      exact hreadKey.bind hreadValue.map
  | @struct room type s given hs _ hall _ ih =>
    rw [Value.form_embedded hs] at hinput ⊢
    rw [Value.normal_struct_of_all hs hall, Wire.read, readStruct, hs]
    have hfield : ∀ f ∈ s.fields, ∀ input, Input.Holds input (Value.fieldForm d (.struct given) f) →
        Reads (Wire.read d.minWidths (readStruct d d.minWidths room) f.layout
            (path.field f.name) input)
          (((given.lookup f.name).getD .null).normal d f.layout)
          (input.advance (Value.fieldForm d (.struct given) f).length)
          (∃ x, Value.field? (.struct given) f.name = some x ∧ Slot.Crowded d (f.layout, x)) := by
      intro f hf input hfield
      obtain ⟨x, hx⟩ := hall f hf
      have hx' : Value.field? (.struct given) f.name = some x := hx
      have hread := ih f hf x hx (hexact.held (.field hs hf hx')) (path.field f.name) input
      simp only [Value.fieldForm, hx', hx, Option.getD_some, Option.some.injEq,
        exists_eq_left'] at hfield ⊢
      exact hread hfield
    exact (readFields_of_holds hfield input hinput).map.congr (Slot.crowded_embedded hs).symm

end Wire

end WireSchema
