-- What bytes yield: the judgement behind reading, one rule for each layout. Reading succeeds at a
-- place exactly when the bytes there yield a value, so whatever holds of every value that was
-- read is proved from the rules, and the reader is opened only here.
import WireSchema.Proofs.Wire.Reading

namespace WireSchema.Wire

open Outcome

/-- Bytes are read as a value of a layout, with structs inside each other down to a depth. -/
inductive Yields (d : DocumentLayout) : Nat → Layout → List UInt8 → Value → Prop
  | fixed {room : Nat} {scalar : Scalar} {bs : List UInt8} :
      bs.length = scalar.width →
      Yields d room (.fixed scalar) bs (scalar.ofBits (Bytes.ofLittle bs))
  | absent {room : Nat} {scalar : Scalar} : Yields d room (.nullable scalar) [0] .null
  /-- Every flag but zero says that the scalar is there. -/
  | present {room : Nat} {scalar : Scalar} {flag : UInt8} {bs : List UInt8} :
      flag ≠ 0 → bs.length = scalar.width →
      Yields d room (.nullable scalar) (flag :: bs) (scalar.ofBits (Bytes.ofLittle bs))
  | string {room : Nat} {bs : List UInt8} {s : String} :
      bs.length < UInt32.size → Text.ofBytes? bs = some s →
      Yields d room .string (countForm bs.length ++ bs) (.string s)
  | fixedBytes {room : Nat} {len : UInt32} {bs : List UInt8} :
      bs.length = len.toNat → Yields d room (.fixedBytes len) bs (.bytes bs)
  | dynamicBytes {room : Nat} {bs : List UInt8} :
      bs.length < UInt32.size →
      Yields d room .dynamicBytes (countForm bs.length ++ bs) (.bytes bs)
  | fixedArray {room : Nat} {len : UInt32} {elem : Layout} {parts : List (List UInt8 × Value)} :
      parts.length = len.toNat → (∀ p ∈ parts, Yields d room elem p.1 p.2) →
      Yields d room (.fixedArray len elem) (parts.flatMap Prod.fst) (.array (parts.map Prod.snd))
  /-- Elements without bytes are only so many. -/
  | dynamicArray {room : Nat} {elem : Layout} {parts : List (List UInt8 × Value)} :
      parts.length < UInt32.size → (d.minWidth elem = 0 → parts.length ≤ maxEmptyElements) →
      (∀ p ∈ parts, Yields d room elem p.1 p.2) →
      Yields d room (.dynamicArray elem) (countForm parts.length ++ parts.flatMap Prod.fst)
        (.array (parts.map Prod.snd))
  /-- Of an entry the key stands before the value. -/
  | map {room : Nat} {key value : Layout}
      {parts : List ((List UInt8 × Value) × List UInt8 × Value)} :
      parts.length < UInt32.size →
      (Width.saturatingAdd (d.minWidth key) (d.minWidth value) = 0 →
        parts.length ≤ maxEmptyElements) →
      (∀ p ∈ parts, Yields d room key p.1.1 p.1.2) →
      (∀ p ∈ parts, Yields d room value p.2.1 p.2.2) →
      Yields d room (.map key value)
        (countForm parts.length ++ parts.flatMap fun p => p.1.1 ++ p.2.1)
        (.map (parts.map fun p => (p.1.2, p.2.2)))
  | struct {room : Nat} {type : String} {s : StructLayout}
      {parts : List (FieldLayout × List UInt8 × Value)} :
      d.get? type = some s → parts.map Prod.fst = s.fields →
      (∀ p ∈ parts, Yields d room p.1.layout p.2.1 p.2.2) →
      Yields d (room + 1) (.embedded type) (parts.flatMap fun p => p.2.1)
        (.struct (parts.map fun p => (p.1.name, p.2.2)))

/-! ## What a reader took -/

namespace Input

/-- A place of a buffer: what is left is what the buffer has from there on, and past its end that
is nothing. -/
def Sound (input : Input) : Prop := input.rest.length = input.len - input.offset

/-- A reader went from a place to another over the given bytes. -/
def Passed (input next : Input) (bs : List UInt8) : Prop :=
  input.Sound ∧ bs <+: input.rest ∧ next = input.advance bs.length

variable {input middle next : Input} {as bs : List UInt8}

theorem sound_ofBuffer (buf : List UInt8) (offset : Nat) : (ofBuffer buf offset).Sound :=
  List.length_drop

theorem Sound.passed_nil (h : input.Sound) : input.Passed input [] := by
  refine ⟨h, List.nil_prefix, ?_⟩
  simp [advance]

theorem Passed.sound (h : input.Passed next bs) : next.Sound := by
  obtain ⟨hin, _, rfl⟩ := h
  unfold Sound at hin ⊢
  simp only [advance, List.length_drop]
  omega

theorem Passed.trans (ha : input.Passed middle as) (hb : middle.Passed next bs) :
    input.Passed next (as ++ bs) := by
  obtain ⟨hin, ⟨rest, hrest⟩, rfl⟩ := ha
  obtain ⟨_, ⟨tail, htail⟩, rfl⟩ := hb
  rw [advance, ← hrest, List.drop_left] at htail
  refine ⟨hin, ⟨tail, ?_⟩, ?_⟩
  · rw [List.append_assoc, htail, hrest]
  · rw [advance_advance, List.length_append]

theorem passed_of_take (hin : input.Sound) {need : Nat} {path : Path}
    (h : input.take need path = .ok (bs, next)) : input.Passed next bs ∧ bs.length = need := by
  obtain ⟨⟨⟩, hroom, h⟩ := bind_eq_ok.1 h
  cases h
  have hneed : need ≤ input.rest.length := by
    unfold Sound at hin
    unfold Input.require at hroom
    by_cases hfits : input.offset + need ≤ input.len
    · omega
    · simp [hfits] at hroom
  have hlen : (input.rest.take need).length = need := List.length_take_of_le hneed
  refine ⟨⟨hin, List.take_prefix need input.rest, ?_⟩, hlen⟩
  rw [hlen]

end Input

variable {d : DocumentLayout} {room : Nat} {input next : Input} {bs : List UInt8}

theorem passed_of_readScalar (hin : input.Sound) {scalar : Scalar} {path : Path} {v : Value}
    (h : readScalar scalar path input = .ok (v, next)) :
    ∃ bs, input.Passed next bs ∧ bs.length = scalar.width ∧
      v = scalar.ofBits (Bytes.ofLittle bs) := by
  obtain ⟨⟨bs, after⟩, htake, h⟩ := bind_eq_ok.1 h
  cases h
  obtain ⟨hpassed, hlen⟩ := Input.passed_of_take hin htake
  exact ⟨bs, hpassed, hlen, rfl⟩

theorem passed_of_readCount (hin : input.Sound) {path : Path} {n : Nat}
    (h : readCount path input = .ok (n, next)) :
    input.Passed next (countForm n) ∧ n < UInt32.size := by
  obtain ⟨⟨bs, after⟩, htake, h⟩ := bind_eq_ok.1 h
  cases h
  obtain ⟨hpassed, hlen⟩ := Input.passed_of_take hin htake
  have hform : countForm (Bytes.ofLittle bs) = bs := by
    rw [countForm, ← hlen, Bytes.little_ofLittle]
  have hlt := Bytes.ofLittle_lt bs
  rw [hlen] at hlt
  rw [hform]
  exact ⟨hpassed, hlt⟩

theorem passed_of_readCounted (hin : input.Sound) {path : Path}
    (h : readCounted path input = .ok (bs, next)) :
    input.Passed next (countForm bs.length ++ bs) ∧ bs.length < UInt32.size := by
  obtain ⟨⟨n, middle⟩, hcount, htake⟩ := bind_eq_ok.1 h
  obtain ⟨hbefore, hn⟩ := passed_of_readCount hin hcount
  obtain ⟨hafter, rfl⟩ := Input.passed_of_take hbefore.sound htake
  exact ⟨hbefore.trans hafter, hn⟩

theorem passed_of_readElementCount (hin : input.Sound) {width : UInt64} {path : Path} {n : Nat}
    (h : readElementCount width path input = .ok (n, next)) :
    input.Passed next (countForm n) ∧ n < UInt32.size ∧ (width = 0 → n ≤ maxEmptyElements) := by
  obtain ⟨⟨m, middle⟩, hcount, h⟩ := bind_eq_ok.1 h
  obtain ⟨hpassed, hm⟩ := passed_of_readCount hin hcount
  dsimp only at h
  by_cases hwidth : width = 0
  · rw [if_pos hwidth, stop_eq_ok] at h
    obtain ⟨hfew, h⟩ := h
    cases h
    exact ⟨hpassed, hm, fun _ => Nat.le_of_not_lt hfew⟩
  · rw [if_neg hwidth, check_bind_eq_ok] at h
    cases h.2
    exact ⟨hpassed, hm, fun hzero => absurd hzero hwidth⟩

section Parts

variable {α τ : Type} {bytes : τ → List UInt8} {value : τ → α} {P : τ → Prop}

/-- Numbered parts that were read one after the other lie one after the other. -/
theorem passed_of_readMany {read : Nat → Input → Except WireError (α × Input)}
    (hread : ∀ i input x next, Input.Sound input → read i input = .ok (x, next) →
      ∃ t, input.Passed next (bytes t) ∧ x = value t ∧ P t)
    {n i : Nat} {seen ys : List α} (hin : input.Sound)
    (h : readMany read n i seen input = .ok (ys, next)) :
    ∃ ts : List τ, input.Passed next (ts.flatMap bytes) ∧ ts.length = n ∧
      ys = seen.reverse ++ ts.map value ∧ ∀ t ∈ ts, P t := by
  induction n generalizing i seen input with
  | zero =>
    cases h
    exact ⟨[], hin.passed_nil, rfl, by simp, nofun⟩
  | succ n ih =>
    rw [readMany] at h
    cases hx : read i input with
    | error e =>
      rw [hx] at h
      cases h
    | ok r =>
      obtain ⟨x, middle⟩ := r
      rw [hx] at h
      obtain ⟨t, hfirst, rfl, ht⟩ := hread i input x middle hin hx
      obtain ⟨ts, hrest, hlen, rfl, hts⟩ := ih hfirst.sound h
      refine ⟨t :: ts, ?_, by rw [List.length_cons, hlen], by simp, ?_⟩
      · rw [List.flatMap_cons]
        exact hfirst.trans hrest
      · exact List.forall_mem_cons.2 ⟨ht, hts⟩

theorem passed_of_readFields {read : FieldLayout → Input → Except WireError (Value × Input)}
    {P : FieldLayout → List UInt8 → Value → Prop}
    (hread : ∀ f input x next, Input.Sound input → read f input = .ok (x, next) →
      ∃ bs, input.Passed next bs ∧ P f bs x)
    {fields : List FieldLayout} {vs : List (String × Value)} (hin : input.Sound)
    (h : readFields read fields input = .ok (vs, next)) :
    ∃ parts : List (FieldLayout × List UInt8 × Value),
      input.Passed next (parts.flatMap fun p => p.2.1) ∧ parts.map Prod.fst = fields ∧
      vs = parts.map (fun p => (p.1.name, p.2.2)) ∧ ∀ p ∈ parts, P p.1 p.2.1 p.2.2 := by
  induction fields generalizing input vs with
  | nil =>
    cases h
    exact ⟨[], hin.passed_nil, rfl, rfl, nofun⟩
  | cons f fields ih =>
    rw [readFields] at h
    obtain ⟨⟨x, middle⟩, hx, h⟩ := bind_eq_ok.1 h
    obtain ⟨⟨xs, last⟩, hxs, h⟩ := bind_eq_ok.1 h
    cases h
    obtain ⟨bs, hfirst, hP⟩ := hread f input x middle hin hx
    obtain ⟨parts, hrest, rfl, rfl, hparts⟩ := ih hfirst.sound hxs
    refine ⟨(f, bs, x) :: parts, ?_, rfl, rfl, List.forall_mem_cons.2 ⟨hP, hparts⟩⟩
    rw [List.flatMap_cons]
    exact hfirst.trans hrest

end Parts

theorem part_of_yields {read : Input → Except WireError (Value × Input)} {l : Layout}
    (hread : ∀ {input v next}, Input.Sound input → read input = .ok (v, next) →
      ∃ bs, input.Passed next bs ∧ Yields d room l bs v)
    (input : Input) (v : Value) (next : Input) (hin : input.Sound)
    (h : read input = .ok (v, next)) :
    ∃ p : List UInt8 × Value, input.Passed next p.1 ∧ v = p.2 ∧ Yields d room l p.1 p.2 := by
  obtain ⟨bs, hpassed, hyields⟩ := hread hin h
  exact ⟨(bs, v), hpassed, rfl, hyields⟩

theorem entry_of_yields {readKey readValue : Input → Except WireError (Value × Input)}
    {key value : Layout}
    (hkey : ∀ {input v next}, Input.Sound input → readKey input = .ok (v, next) →
      ∃ bs, input.Passed next bs ∧ Yields d room key bs v)
    (hvalue : ∀ {input v next}, Input.Sound input → readValue input = .ok (v, next) →
      ∃ bs, input.Passed next bs ∧ Yields d room value bs v)
    (input : Input) (e : Value × Value) (next : Input) (hin : input.Sound)
    (h : (do
      let (k, input) ← readKey input
      let (v, input) ← readValue input
      return ((k, v), input)) = .ok (e, next)) :
    ∃ p : (List UInt8 × Value) × List UInt8 × Value,
      input.Passed next (p.1.1 ++ p.2.1) ∧ e = (p.1.2, p.2.2) ∧
        Yields d room key p.1.1 p.1.2 ∧ Yields d room value p.2.1 p.2.2 := by
  obtain ⟨⟨k, between⟩, hk, h⟩ := bind_eq_ok.1 h
  obtain ⟨⟨v, last⟩, hv, h⟩ := bind_eq_ok.1 h
  cases h
  obtain ⟨ks, hbefore, hyieldsKey⟩ := hkey hin hk
  obtain ⟨vs, hafter, hyieldsValue⟩ := hvalue hbefore.sound hv
  exact ⟨((ks, k), vs, v), hbefore.trans hafter, rfl, hyieldsKey, hyieldsValue⟩

/-- What was read at a place is what the bytes there yield, when that is so for structs. -/
theorem yields_of_read {onStruct : ReadStruct}
    (hstruct : ∀ type path input v next, Input.Sound input →
      onStruct type path input = .ok (v, next) →
      ∃ bs, input.Passed next bs ∧ Yields d room (.embedded type) bs v)
    {l : Layout} {path : Path} {v : Value} (hin : input.Sound)
    (h : read d.minWidths onStruct l path input = .ok (v, next)) :
    ∃ bs, input.Passed next bs ∧ Yields d room l bs v := by
  induction l generalizing path input next v with
  | fixed scalar =>
    obtain ⟨bs, hpassed, hlen, rfl⟩ := passed_of_readScalar hin h
    exact ⟨bs, hpassed, .fixed hlen⟩
  | nullable scalar =>
    rw [read] at h
    obtain ⟨⟨flag, middle⟩, htake, h⟩ := bind_eq_ok.1 h
    obtain ⟨hbefore, hlen⟩ := Input.passed_of_take hin htake
    obtain ⟨b, rfl⟩ := List.length_eq_one_iff.1 hlen
    have hflag : Bytes.ofLittle [b] = b.toNat := by simp [Bytes.ofLittle]
    dsimp only at h
    rw [hflag] at h
    by_cases hb : b.toNat = 0
    · rw [if_pos hb] at h
      cases h
      obtain rfl : b = 0 := UInt8.toNat_inj.1 hb
      exact ⟨[0], hbefore, .absent⟩
    · rw [if_neg hb] at h
      obtain ⟨bs, hafter, hwidth, rfl⟩ := passed_of_readScalar hbefore.sound h
      refine ⟨b :: bs, hbefore.trans hafter, .present ?_ hwidth⟩
      rintro rfl
      exact hb rfl
  | string =>
    rw [read] at h
    obtain ⟨⟨bs, after⟩, hbs, h⟩ := bind_eq_ok.1 h
    obtain ⟨hpassed, hlen⟩ := passed_of_readCounted hin hbs
    cases htext : Text.ofBytes? bs with
    | none => simp [htext, throw, throwThe, MonadExceptOf.throw] at h
    | some s =>
      simp only [htext] at h
      cases h
      exact ⟨_, hpassed, .string hlen htext⟩
  | fixedBytes len =>
    rw [read] at h
    obtain ⟨⟨bs, after⟩, htake, h⟩ := bind_eq_ok.1 h
    cases h
    obtain ⟨hpassed, hlen⟩ := Input.passed_of_take hin htake
    exact ⟨bs, hpassed, .fixedBytes hlen⟩
  | dynamicBytes =>
    rw [read] at h
    obtain ⟨⟨bs, after⟩, hbs, h⟩ := bind_eq_ok.1 h
    cases h
    obtain ⟨hpassed, hlen⟩ := passed_of_readCounted hin hbs
    exact ⟨_, hpassed, .dynamicBytes hlen⟩
  | fixedArray len elem ih =>
    rw [read] at h
    obtain ⟨⟨xs, after⟩, hxs, h⟩ := bind_eq_ok.1 h
    cases h
    obtain ⟨parts, hpassed, hlen, rfl, hparts⟩ :=
      passed_of_readMany (fun i => part_of_yields fun hsound hx => ih hsound hx) hin hxs
    exact ⟨_, hpassed, .fixedArray hlen hparts⟩
  | dynamicArray elem ih =>
    rw [read] at h
    obtain ⟨⟨n, middle⟩, hcount, h⟩ := bind_eq_ok.1 h
    obtain ⟨⟨xs, after⟩, hxs, h⟩ := bind_eq_ok.1 h
    cases h
    obtain ⟨hbefore, hn, hfew⟩ := passed_of_readElementCount hin hcount
    obtain ⟨parts, hafter, rfl, rfl, hparts⟩ :=
      passed_of_readMany (fun i => part_of_yields fun hsound hx => ih hsound hx) hbefore.sound hxs
    exact ⟨_, hbefore.trans hafter, .dynamicArray hn hfew hparts⟩
  | map key value ihk ihv =>
    rw [read] at h
    obtain ⟨⟨n, middle⟩, hcount, h⟩ := bind_eq_ok.1 h
    obtain ⟨⟨es, after⟩, hes, h⟩ := bind_eq_ok.1 h
    cases h
    obtain ⟨hbefore, hn, hfew⟩ := passed_of_readElementCount hin hcount
    obtain ⟨parts, hafter, rfl, rfl, hparts⟩ := passed_of_readMany
      (fun i => entry_of_yields (fun hsound hk => ihk hsound hk) fun hsound hv => ihv hsound hv)
      hbefore.sound hes
    exact ⟨_, hbefore.trans hafter,
      .map hn hfew (fun p hp => (hparts p hp).1) fun p hp => (hparts p hp).2⟩
  | embedded type => exact hstruct type path input v next hin h

theorem yields_of_readStruct {type : String} {path : Path} {v : Value} (hin : input.Sound)
    (h : readStruct d d.minWidths room type path input = .ok (v, next)) :
    ∃ bs, input.Passed next bs ∧ Yields d room (.embedded type) bs v := by
  induction room generalizing type path input next v with
  | zero => cases h
  | succ room ih =>
    rw [readStruct] at h
    cases hs : d.get? type with
    | none =>
      rw [hs] at h
      cases h
    | some s =>
      rw [hs] at h
      obtain ⟨⟨vs, after⟩, hvs, h⟩ := bind_eq_ok.1 h
      cases h
      obtain ⟨parts, hpassed, hfields, rfl, hparts⟩ := passed_of_readFields
        (P := fun f bs v => Yields d room f.layout bs v)
        (fun f input v next hsound hv =>
          yields_of_read (fun _ _ _ _ _ hsound hv => ih hsound hv) hsound hv) hin hvs
      exact ⟨_, hpassed, .struct hs hfields hparts⟩

/-- A struct that was read has each field of its layout under its name. -/
theorem lookup_part (hd : d.FieldsDiffer) {type : String} {s : StructLayout}
    {parts : List (FieldLayout × List UInt8 × Value)} (hs : d.get? type = some s)
    (hfields : parts.map Prod.fst = s.fields) {p : FieldLayout × List UInt8 × Value}
    (hp : p ∈ parts) : (parts.map fun p => (p.1.name, p.2.2)).lookup p.1.name = some p.2.2 := by
  have hnames : (parts.map fun p => (p.1.name, p.2.2)).map Prod.fst =
      s.fields.map FieldLayout.name := by
    rw [← hfields, List.map_map, List.map_map]
    rfl
  exact lookup_of_nodup (hnames ▸ hd.get hs) (List.mem_map.2 ⟨p, hp, rfl⟩)

/-- What is read takes a number of bytes that its layout can take. -/
theorem Yields.spans {l : Layout} {v : Value} (h : Yields d room l bs v) :
    Spans d l bs.length := by
  induction h with
  | fixed hlen =>
    rw [hlen]
    exact .fixed
  | absent => exact .nullable 0
  | present _ _ =>
    rw [List.length_cons, Nat.add_comm]
    exact .nullable _
  | string =>
    rw [List.length_append, length_countForm]
    exact .string _
  | fixedBytes hlen =>
    rw [hlen]
    exact .fixedBytes
  | dynamicBytes =>
    rw [List.length_append, length_countForm]
    exact .dynamicBytes _
  | fixedArray hlen _ ih =>
    rw [List.length_flatMap]
    exact .fixedArray (by rwa [List.length_map]) (List.forall_mem_map.2 ih)
  | dynamicArray =>
    rw [List.length_append, length_countForm]
    exact .dynamicArray _
  | map =>
    rw [List.length_append, length_countForm]
    exact .map _
  | @struct _ _ s parts hs hfields _ ih =>
    have hspans : Spans d (.embedded _)
        ((parts.map fun p => (p.1, p.2.1.length)).map Prod.snd).sum :=
      .struct hs (by rw [List.map_map, ← hfields]; rfl) (List.forall_mem_map.2 ih)
    rw [List.map_map] at hspans
    rw [List.length_flatMap]
    exact hspans

end WireSchema.Wire
