-- Messages delimit themselves: bytes that yield a value yield it wherever they stand, whatever
-- is around them, and a buffer that ends inside them is too short and nothing else. The count of
-- a container is checked against the whole rest of the buffer, so both rest on the fewest bytes
-- never overstating what the elements take.
import WireSchema.Proofs.Wire.RoundTrip
import WireSchema.Proofs.Wire.Yields

namespace WireSchema

open Outcome

namespace Wire

/-! ## Readers that stay inside their bytes -/

/-- The buffer ends inside the given bytes. -/
def Input.Cut (input : Input) (bs : List UInt8) : Prop :=
  input.rest <+: bs ∧ input.rest.length < bs.length ∧
    input.offset + input.rest.length = input.len

/-- The buffer is too short, and nothing else is wrong. -/
def OutOfBounds {α : Type} (r : Except WireError α) (len : Nat) : Prop :=
  ∃ path offset need, r = .error (.outOfBounds path offset need len)

theorem OutOfBounds.bind {α β : Type} {r : Except WireError α} {len : Nat} (h : OutOfBounds r len)
    (f : α → Except WireError β) : OutOfBounds (r >>= f) len := by
  obtain ⟨path, offset, need, rfl⟩ := h
  exact ⟨path, offset, need, rfl⟩

/-- A reader takes a value from the given bytes, from all of them and from nothing else. -/
structure Delimits {α : Type} (read : Input → Except WireError (α × Input)) (bs : List UInt8)
    (x : α) : Prop where
  whole : ∀ input, input.Holds bs → read input = .ok (x, input.advance bs.length)
  cut : ∀ input, input.Cut bs → OutOfBounds (read input) input.len

theorem Input.whole_ofBuffer {buf : List UInt8} {offset : Nat} (h : offset ≤ buf.length) :
    (ofBuffer buf offset).offset + (ofBuffer buf offset).rest.length =
      (ofBuffer buf offset).len := by
  simp only [ofBuffer, List.length_drop]
  omega

/-- A buffer that ends inside two blocks ends inside the first, or holds it and ends inside the
second. -/
theorem Input.Cut.append {input : Input} {as bs : List UInt8} (h : input.Cut (as ++ bs)) :
    input.Cut as ∨ input.Holds as ∧ (input.advance as.length).Cut bs := by
  obtain ⟨hstart, hshort, hin⟩ := h
  by_cases hlen : input.rest.length < as.length
  · left
    exact ⟨List.prefix_of_prefix_length_le hstart (List.prefix_append as bs) hlen.le, hlen, hin⟩
  · right
    have hfirst : as <+: input.rest :=
      List.prefix_of_prefix_length_le (List.prefix_append as bs) hstart (by omega)
    obtain ⟨tail, htail⟩ := hfirst
    have hrest : (input.advance as.length).rest = tail := by
      rw [advance, ← htail, List.drop_left]
    rw [← htail] at hstart hshort
    rw [List.prefix_append_right_inj] at hstart
    have hlen : input.rest.length = as.length + tail.length := by
      rw [← htail, List.length_append]
    simp only [List.length_append] at hshort
    refine ⟨⟨⟨tail, htail⟩, hin⟩, hrest ▸ hstart, by rw [hrest]; omega, ?_⟩
    change input.offset + as.length + (input.advance as.length).rest.length = input.len
    rw [hrest]
    omega

namespace Delimits

variable {α β τ : Type} {read : Input → Except WireError (α × Input)} {as bs : List UInt8} {x : α}
  {y : β}

theorem take (bs : List UInt8) (path : Path) :
    Delimits (fun input => input.take bs.length path) bs bs := by
  constructor
  · intro input h
    exact h.take path
  · intro input h
    obtain ⟨hstart, hshort, hin⟩ := h
    refine ⟨path, input.offset, bs.length, ?_⟩
    unfold Input.take Input.require
    rw [if_neg (by omega)]
    rfl

theorem pure (x : α) : Delimits (fun input => .ok (x, input)) [] x := by
  constructor
  · intro input _
    simp [Input.advance]
  · intro input h
    exact absurd h.2.1 (Nat.not_lt_zero _)

theorem bind {f : α → Input → Except WireError (β × Input)} (ha : Delimits read as x)
    (hb : Delimits (f x) bs y) :
    Delimits (fun input => do
      let (x, input) ← read input
      f x input) (as ++ bs) y := by
  constructor
  · intro input h
    obtain ⟨hfirst, hsecond⟩ := h.append
    have hnext := hb.whole _ hsecond
    rw [Input.advance_advance, ← List.length_append] at hnext
    rw [ha.whole input hfirst, ok_bind]
    exact hnext
  · intro input h
    rcases h.append with hcut | ⟨hholds, hcut⟩
    · exact (ha.cut input hcut).bind _
    · rw [ha.whole input hholds, ok_bind]
      exact hb.cut _ hcut

/-- A reader that ends by giving its value in another shape. -/
theorem map (h : Delimits read bs x) (g : α → β) :
    Delimits (fun input => do
      let (x, input) ← read input
      return (g x, input)) bs (g x) := by
  have hmap := h.bind (f := fun x input => .ok (g x, input)) (pure (g x))
  rwa [List.append_nil] at hmap

theorem readMany {read : Nat → Input → Except WireError (α × Input)} {bytes : τ → List UInt8}
    {value : τ → α} {ts : List τ} (h : ∀ t ∈ ts, ∀ i, Delimits (read i) (bytes t) (value t))
    (i : Nat) (seen : List α) :
    Delimits (Wire.readMany read ts.length i seen) (ts.flatMap bytes)
      (seen.reverse ++ ts.map value) := by
  induction ts generalizing i seen with
  | nil =>
    rw [List.map_nil, List.append_nil]
    exact pure seen.reverse
  | cons t ts ih =>
    have hrest := ih (fun u hu => h u (List.mem_cons_of_mem t hu)) (i + 1) (value t :: seen)
    rw [List.reverse_cons, List.append_assoc] at hrest
    have hstep : Wire.readMany read (t :: ts).length i seen = (fun input => do
        let (x, input) ← read i input
        Wire.readMany read ts.length (i + 1) (x :: seen) input) := by
      funext input
      rw [List.length_cons, Wire.readMany]
      cases read i input <;> rfl
    rw [hstep, List.flatMap_cons]
    exact (h t (List.mem_cons_self ..) i).bind
      (f := fun x => Wire.readMany read ts.length (i + 1) (x :: seen)) hrest

theorem readFields (read : FieldLayout → Input → Except WireError (Value × Input))
    {parts : List (FieldLayout × List UInt8 × Value)}
    (h : ∀ p ∈ parts, Delimits (read p.1) p.2.1 p.2.2) :
    Delimits (Wire.readFields read (parts.map Prod.fst)) (parts.flatMap fun p => p.2.1)
      (parts.map fun p => (p.1.name, p.2.2)) := by
  induction parts with
  | nil => exact pure []
  | cons p parts ih =>
    have hrest := ih fun q hq => h q (List.mem_cons_of_mem p hq)
    rw [List.flatMap_cons]
    exact (h p (List.mem_cons_self ..)).bind
      (f := fun v input => do
        let rest ← Wire.readFields read (parts.map Prod.fst) input
        return ((p.1.name, v) :: rest.1, rest.2)) (hrest.map ((p.1.name, p.2.2) :: ·))

/-! ## Parts of a value -/

theorem readScalar {scalar : Scalar} (hlen : bs.length = scalar.width) (path : Path) :
    Delimits (Wire.readScalar scalar path) bs (scalar.ofBits (Bytes.ofLittle bs)) := by
  have h := (take bs path).map fun bs => scalar.ofBits (Bytes.ofLittle bs)
  rw [hlen] at h
  exact h

theorem readCount {n : Nat} (hn : n < UInt32.size) (path : Path) :
    Delimits (Wire.readCount path) (countForm n) n := by
  have h := (take (countForm n) path).map Bytes.ofLittle
  rw [length_countForm, countForm, Bytes.ofLittle_little hn] at h
  exact h

theorem readCounted (hlen : bs.length < UInt32.size) (path : Path) :
    Delimits (Wire.readCounted path) (countForm bs.length ++ bs) bs :=
  (readCount hlen path).bind (f := fun n input => input.take n path) (take bs path)

/-- A count that was read is believed, or the buffer is too short for what it announces. -/
theorem count_or_short {input next : Input} {n : Nat} {width : UInt64} {path : Path}
    (hcount : Wire.readCount path input = .ok (n, next))
    (hfew : width = 0 → n ≤ maxEmptyElements) :
    readElementCount width path input = .ok (n, next) ∨
      OutOfBounds (readElementCount width path input) next.len := by
  rw [readElementCount, hcount, ok_bind]
  dsimp only
  by_cases hzero : width = 0
  · left
    rw [if_pos hzero, if_neg (Nat.not_lt.2 (hfew hzero))]
    rfl
  · rw [if_neg hzero]
    unfold Input.require
    split
    · exact .inl rfl
    · exact .inr ⟨_, _, _, rfl⟩

/-- A counted container is read from its count and its parts, when no part is narrower than the
width that the count is checked with. -/
theorem counted {read : Nat → Input → Except WireError (α × Input)} {bytes : τ → List UInt8}
    {value : τ → α} {ts : List τ} {width : UInt64} (hlen : ts.length < UInt32.size)
    (hfew : width = 0 → ts.length ≤ maxEmptyElements)
    (hwidth : ∀ t ∈ ts, width.toNat ≤ (bytes t).length)
    (h : ∀ t ∈ ts, ∀ i, Delimits (read i) (bytes t) (value t)) (path : Path)
    (wrap : List α → Value) :
    Delimits (fun input => do
        let (n, input) ← readElementCount width path input
        let (ys, input) ← Wire.readMany read n 0 [] input
        return (wrap ys, input))
      (countForm ts.length ++ ts.flatMap bytes) (wrap (ts.map value)) := by
  have hmany := (readMany h 0 []).map wrap
  rw [List.reverse_nil, List.nil_append] at hmany
  constructor
  · intro input hin
    have hparts := hmany.whole _ hin.append.2
    rw [Input.advance_advance, ← List.length_append] at hparts
    have hneed := Layout.mul_le_length_flatMap hwidth
    rcases readElementCount_of_holds hlen hin hneed path with ⟨_, hcount⟩ | ⟨hcrowded, _⟩
    · rw [hcount, ok_bind, ← length_countForm ts.length]
      exact hparts
    · exact absurd (hfew hcrowded.1) (Nat.not_le.2 hcrowded.2)
  · intro input hin
    rcases hin.append with hcut | ⟨hholds, hcut⟩
    · exact (((readCount hlen path).cut input hcut).bind _).bind _
    · have hcount := (readCount hlen path).whole input hholds
      rcases count_or_short hcount hfew with hok | hshort
      · rw [hok, ok_bind]
        exact hmany.cut _ hcut
      · exact hshort.bind _

end Delimits

/-! ## Values -/

/-- Bytes that yield a value are all that its reader takes, and enough for it. -/
theorem Yields.delimits {d : DocumentLayout} {room : Nat} {l : Layout} {bs : List UInt8}
    {v : Value} (h : Yields d room l bs v) (path : Path) :
    Delimits (read d.minWidths (readStruct d d.minWidths room) l path) bs v := by
  induction h generalizing path with
  | fixed hlen => exact .readScalar hlen path
  | @absent _ scalar =>
    have hrest : Delimits (fun input => if Bytes.ofLittle [0] = 0 then .ok (Value.null, input)
        else readScalar scalar path input) [] .null := by
      simp only [show Bytes.ofLittle [0] = 0 from rfl, if_true]
      exact .pure Value.null
    exact (Delimits.take [0] path).bind (f := fun flag input =>
      if Bytes.ofLittle flag = 0 then .ok (Value.null, input) else readScalar scalar path input)
      hrest
  | @present _ scalar flag bs hflag hlen =>
    have hne : Bytes.ofLittle [flag] ≠ 0 := by
      simp only [Bytes.ofLittle, Nat.mul_zero, Nat.add_zero]
      exact fun h => hflag (UInt8.toNat_inj.1 h)
    have hrest : Delimits (fun input => if Bytes.ofLittle [flag] = 0 then .ok (.null, input)
        else readScalar scalar path input) bs (scalar.ofBits (Bytes.ofLittle bs)) := by
      simp only [hne, if_false]
      exact .readScalar hlen path
    exact (Delimits.take [flag] path).bind (f := fun flag input =>
      if Bytes.ofLittle flag = 0 then .ok (Value.null, input) else readScalar scalar path input)
      hrest
  | @string _ bs s hlen htext =>
    have hblock := Delimits.readCounted hlen path
    constructor
    · intro input hin
      rw [Wire.read, hblock.whole input hin, ok_bind]
      simp only [htext]
      rfl
    · intro input hin
      exact (hblock.cut input hin).bind _
  | @fixedBytes _ len bs hlen =>
    have hblock := (Delimits.take bs path).map Value.bytes
    rw [hlen] at hblock
    exact hblock
  | dynamicBytes hlen => exact (Delimits.readCounted hlen path).map Value.bytes
  | @fixedArray _ len elem parts hlen _ ih =>
    have hmany := (Delimits.readMany (fun p hp i => ih p hp (path.index i)) 0 []).map Value.array
    rw [hlen] at hmany
    exact hmany
  | dynamicArray hlen hfew hparts ih =>
    refine .counted hlen hfew ?_ (fun p hp i => ih p hp (path.index i)) path Value.array
    exact fun p hp => DocumentLayout.minWidth_le_of_spans (hparts p hp).spans
  | @map room key value parts hlen hfew hkeys hvalues ihk ihv =>
    refine .counted hlen hfew ?_ ?_ path Value.map
    · intro p hp
      have hkey := DocumentLayout.minWidth_le_of_spans (hkeys p hp).spans
      have hvalue := DocumentLayout.minWidth_le_of_spans (hvalues p hp).spans
      rw [Width.saturatingAdd, Width.toNat_saturate, List.length_append]
      omega
    · intro p hp i
      exact (ihk p hp (path.index i)).bind (f := fun k input => do
        let v ← read d.minWidths (readStruct d d.minWidths room) value (path.index i) input
        return ((k, v.1), v.2)) ((ihv p hp (path.index i)).map fun v => (p.1.2, v))
  | @struct room type s parts hs hfields _ ih =>
    have hread := (Delimits.readFields
      (fun f => Wire.read d.minWidths (readStruct d d.minWidths room) f.layout (path.field f.name))
      fun p hp => ih p hp (path.field p.1.name)).map Value.struct
    rw [hfields] at hread
    constructor
    · intro input hin
      rw [Wire.read, readStruct, hs]
      exact hread.whole input hin
    · intro input hin
      rw [Wire.read, readStruct, hs]
      exact hread.cut input hin

end Wire

namespace Codec

open Wire

variable {d : DocumentLayout} {type : String} {buf : List UInt8} {offset stop : Nat} {v : Value}

/-- A value that was read stands at its place: the bytes there yield it, and it ends where they
end. -/
theorem yields_of_unmarshal (h : (ofLayout d).unmarshal type buf offset = .ok (v, stop)) :
    ∃ bs, bs <+: buf.drop offset ∧ stop = offset + bs.length ∧
      Yields d maxDepth (.embedded type) bs v := by
  rw [unmarshal_ofLayout] at h
  obtain ⟨⟨w, next⟩, hread, h⟩ := bind_eq_ok.1 h
  cases h
  obtain ⟨bs, ⟨_, hbs, rfl⟩, hyields⟩ :=
    yields_of_readStruct (Input.sound_ofBuffer buf offset) hread
  exact ⟨bs, hbs, rfl, hyields⟩

theorem unmarshal_of_holds {bs : List UInt8} (h : Yields d maxDepth (.embedded type) bs v)
    (hholds : (Input.ofBuffer buf offset).Holds bs) :
    (ofLayout d).unmarshal type buf offset = .ok (v, offset + bs.length) := by
  have hread : readStruct d d.minWidths maxDepth type (.start type) (.ofBuffer buf offset) = _ :=
    (h.delimits (.start type)).whole _ hholds
  rw [unmarshal_ofLayout, hread]
  rfl

theorem unmarshal_of_cut {bs : List UInt8} (h : Yields d maxDepth (.embedded type) bs v)
    (hcut : (Input.ofBuffer buf offset).Cut bs) :
    OutOfBounds ((ofLayout d).unmarshal type buf offset) buf.length :=
  ((h.delimits (.start type)).cut _ hcut).bind _

/-- A message delimits itself. The bytes of a value that was read give it wherever else they
stand, and every buffer that ends inside them is too short, which is the only error. -/
theorem messages_delimit_themselves
    (h : (ofLayout d).unmarshal type buf offset = .ok (v, stop))
    (hstart : offset ≤ stop) (hstop : stop ≤ buf.length) :
    (∀ other start, start + (stop - offset) ≤ other.length →
      other.extract start (start + (stop - offset)) = buf.extract offset stop →
      (ofLayout d).unmarshal type other start = .ok (v, start + (stop - offset))) ∧
    ∀ cut, offset ≤ cut → cut < stop → ∃ path start need,
      (ofLayout d).unmarshal type (buf.take cut) offset =
        .error (.outOfBounds path start need cut) := by
  obtain ⟨bs, hbs, rfl, hyields⟩ := yields_of_unmarshal h
  have hbytes : (buf.drop offset).take bs.length = bs := (List.prefix_iff_eq_take.1 hbs).symm
  rw [Nat.add_sub_cancel_left]
  constructor
  · intro other start hroom hsame
    simp only [List.extract_eq_take_drop, Nat.add_sub_cancel_left, hbytes] at hsame
    refine unmarshal_of_holds hyields ⟨?_, Input.whole_ofBuffer (by omega)⟩
    rw [← hsame]
    exact List.take_prefix _ _
  · intro cut hfrom hcut
    have hshort : (buf.take cut).length = cut := List.length_take_of_le (by omega)
    have hrest : (buf.take cut).drop offset = (buf.drop offset).take (cut - offset) :=
      List.drop_take
    have hrestLen : ((buf.take cut).drop offset).length = cut - offset := by
      rw [List.length_drop, hshort]
    have hcutAt : (Input.ofBuffer (buf.take cut) offset).Cut bs := by
      refine ⟨?_, ?_, Input.whole_ofBuffer (by omega)⟩
      · change (buf.take cut).drop offset <+: bs
        rw [hrest] at hrestLen ⊢
        exact List.prefix_of_prefix_length_le (List.take_prefix _ _) hbs (by omega)
      · change ((buf.take cut).drop offset).length < bs.length
        omega
    have herror := unmarshal_of_cut hyields hcutAt
    rwa [hshort] at herror

/-- A list of two short numbers behind a byte of something else: its eight bytes stand alone, and
the start of them does not. -/
theorem a_list_delimits_itself :
    let c := ofLayout ⟨1, "p", .little, [⟨"S", [⟨"Xs", .dynamicArray (.fixed .u16)⟩]⟩]⟩
    let buf := [9, 2, 0, 0, 0, 5, 0, 6, 1, 7]
    let v := Value.struct [("Xs", .array [.uint 5, .uint 262])]
    c.unmarshal "S" buf 1 = .ok (v, 9) ∧
      c.unmarshal "S" [2, 0, 0, 0, 5, 0, 6, 1] 0 = .ok (v, 8) ∧
      ∃ path start need,
        c.unmarshal "S" (buf.take 6) 1 = .error (.outOfBounds path start need 6) := by
  intro c buf v
  have hread : c.unmarshal "S" buf 1 = .ok (v, 9) := by rfl
  obtain ⟨halone, hcut⟩ := messages_delimit_themselves hread (by decide) (by decide)
  exact ⟨hread, halone _ 0 (by decide) (by decide), hcut 6 (by decide) (by decide)⟩

end Codec

end WireSchema
