-- Measuring and writing agree: a value that has a size is written as its form, which has that
-- length, and a value without one stops the writer with the error of its size. So `size`,
-- `marshal` and `encode` tell the same of every value.
import WireSchema.Proofs.Number.Bytes
import WireSchema.Proofs.Outcome
import WireSchema.Proofs.Wire.Form
import WireSchema.Proofs.Wire.Parts

namespace WireSchema.Wire

open Outcome Output

/-! ## Sizes and outputs -/

/-- A size and an output agree on a form: the form has the size and is put out, or the same
error stops both. -/
def Agree (size : Except WireError Nat) (out : Output) (form : List UInt8) : Prop :=
  match size with
  | .ok n => out.fault = none ∧ out.bytes = form ∧ form.length = n
  | .error e => out.fault = some e

theorem Agree.put (path : Path) (bs : List UInt8) : Agree (.ok bs.length) (.put path bs) bs :=
  ⟨rfl, by simp [Output.put, Output.bytes], rfl⟩

theorem Agree.given {α : Type} {x : Except WireError α} {size : α → Except WireError Nat}
    {write : α → Output} {form : List UInt8}
    (h : ∀ a, x = .ok a → Agree (size a) (write a) form) :
    Agree (x >>= size) (given x write) form := by
  cases x with
  | error e => rfl
  | ok a => exact h a rfl

theorem Agree.andThen {m n : Except WireError Nat} {a b : Output} {as bs : List UInt8}
    (ha : Agree m a as) (hb : Agree n b bs) :
    Agree (do return (← m) + (← n)) (a.andThen b) (as ++ bs) := by
  cases m with
  | error e =>
    unfold Output.andThen
    rw [show a.fault = some e from ha]
    exact ha
  | ok m =>
    obtain ⟨hfault, hbytes, hlen⟩ := ha
    unfold Output.andThen
    rw [hfault]
    cases n with
    | error e => exact hb
    | ok n =>
      obtain ⟨hfault', hbytes', hlen'⟩ := hb
      refine ⟨hfault', ?_, ?_⟩
      · rw [← hbytes, ← hbytes']
        simp [Output.bytes]
      · rw [List.length_append, hlen, hlen']

/-- Numbered parts agree when each of them does. -/
theorem Agree.forEach {α : Type} {size : Nat → α → Except WireError Nat}
    {write : Nat → α → Output} {form : α → List UInt8} {xs : List α}
    (h : ∀ i, ∀ x ∈ xs, Agree (size i x) (write i x) (form x)) :
    Agree (sumSizes size xs) (Output.forEach write xs) (xs.flatMap form) := by
  -- The numbers go on from any start, so the induction is on the parts alone.
  suffices hall : ∀ i, Agree
      ((xs.zipIdx i).foldlM (fun total x => return total + (← size x.2 x.1)) 0)
      ((xs.zipIdx i).foldr (fun x rest => (write x.2 x.1).andThen rest) done)
      (xs.flatMap form) from hall 0
  induction xs with
  | nil => exact fun _ => ⟨rfl, rfl, rfl⟩
  | cons x xs ih =>
    intro i
    have hx := h i x (List.mem_cons_self ..)
    have hxs := ih (fun i y hy => h i y (List.mem_cons_of_mem x hy)) (i + 1)
    rw [List.zipIdx_cons, foldlM_size_cons, List.flatMap_cons, List.foldr_cons]
    exact hx.andThen hxs

/-! ## Values -/

/-- The values of a struct's fields are put out as the struct's form. -/
theorem flatMap_fieldValues {d : DocumentLayout} {s : StructLayout} {v : Value} {path : Path}
    {fields : List (FieldLayout × Value)} (h : fieldValues s v path = .ok fields) :
    fields.flatMap (fun f => f.2.form d f.1.layout) = s.fields.flatMap (v.fieldForm d) := by
  obtain ⟨_, hall, rfl⟩ := fieldValues_eq_ok.1 h
  rw [List.flatMap_map]
  refine List.flatMap_congr fun f hf => ?_
  obtain ⟨x, hx⟩ := hall f hf
  simp only [Value.fieldForm, hx, Option.getD_some]

theorem agree_putCount (path : Path) (n : Nat) :
    Agree (.ok countWidth) (putCount path n) (countForm n) := by
  have h := Agree.put path (countForm n)
  rwa [countForm, Bytes.length_little] at h

theorem agree_writeCounted (path : Path) (bs : List UInt8) :
    Agree (do return countWidth + (← count bs.length path)) (writeCounted path bs)
      (countForm bs.length ++ bs) := by
  refine Agree.given fun n hn => ?_
  obtain ⟨_, rfl⟩ := count_eq_ok.1 hn
  exact (agree_putCount path _).andThen (Agree.put path bs)

/-- Measuring and writing a value agree on its form, when they do for the structs in it. -/
theorem agree_write {d : DocumentLayout} {onSize : OnStruct (Except WireError Nat)}
    {onWrite : OnStruct Output}
    (h : ∀ type v path,
      Agree (onSize type v path) (onWrite type v path) (v.form d (.embedded type)))
    (l : Layout) (v : Value) (path : Path) :
    Agree (size onSize l v path) (write onWrite l v path) (v.form d l) := by
  induction l generalizing v path with
  | fixed scalar =>
    refine Agree.given fun bs hbs => ?_
    have hbytes := scalarBytes_eq_ok.1 hbs
    rw [Value.form, Scalar.form_eq hbytes, ← Scalar.length_bytes hbytes]
    exact Agree.put path bs
  | nullable scalar =>
    -- Only `null` is told apart, so the other values share one argument.
    have hpresent : Agree (do
        let _ ← scalarBytes scalar v path
        return flagWidth + scalar.width)
        (Output.given (scalarBytes scalar v path) fun bs =>
          (Output.put path [1]).andThen (.put path bs)) (1 :: scalar.form v) := by
      refine Agree.given fun bs hbs => ?_
      have hbytes := scalarBytes_eq_ok.1 hbs
      rw [Scalar.form_eq hbytes, ← Scalar.length_bytes hbytes]
      exact (Agree.put path [1]).andThen (Agree.put path bs)
    cases v with
    | null => exact Agree.put path [0]
    | _ => exact hpresent
  | string =>
    refine Agree.given fun bs hbs => ?_
    obtain ⟨s, rfl, rfl⟩ := text_eq_ok.1 hbs
    exact agree_writeCounted path (Text.bytes s)
  | fixedBytes len =>
    refine Agree.given fun bs hbs => Agree.given fun _ _ => ?_
    obtain rfl := block_eq_ok.1 hbs
    exact Agree.put path bs
  | dynamicBytes =>
    refine Agree.given fun bs hbs => ?_
    obtain rfl := block_eq_ok.1 hbs
    exact agree_writeCounted path bs
  | fixedArray len elem ih =>
    refine Agree.given fun xs hxs => Agree.given fun _ _ => ?_
    obtain rfl := items_eq_ok.1 hxs
    rw [Value.form, Value.formItems_eq]
    exact Agree.forEach fun i x _ => ih x (path.index i)
  | dynamicArray elem ih =>
    refine Agree.given fun xs hxs => Agree.given fun n hn => ?_
    obtain rfl := items_eq_ok.1 hxs
    obtain ⟨_, rfl⟩ := count_eq_ok.1 hn
    rw [Value.form, Value.formItems_eq]
    exact (agree_putCount path _).andThen (Agree.forEach fun i x _ => ih x (path.index i))
  | map key value ihk ihv =>
    refine Agree.given fun es hes => Agree.given fun n hn => ?_
    obtain rfl := entries_eq_ok.1 hes
    obtain ⟨_, rfl⟩ := count_eq_ok.1 hn
    rw [Value.form, Value.formEntries_eq]
    exact (agree_putCount path _).andThen (Agree.forEach fun i e _ =>
      (ihk e.1 (path.index i)).andThen (ihv e.2 (path.index i)))
  | embedded type => exact h type v path

/-- Measuring and writing a struct agree on its form, whatever room they have. -/
theorem agree_writeStruct (d : DocumentLayout) (room : Nat) (type : String) (v : Value)
    (path : Path) :
    Agree (structSize d room type v path) (writeStruct d room type v path)
      (v.form d (.embedded type)) := by
  induction room generalizing type v path with
  | zero => rfl
  | succ room ih =>
    refine Agree.given fun s hs => Agree.given fun fields hfields => ?_
    rw [Value.form_embedded (lookup_eq_ok.1 hs), ← flatMap_fieldValues hfields]
    exact Agree.forEach fun _ f _ => agree_write ih f.1.layout f.2 (path.field f.1.name)

/-! ## Buffers -/

/-- Blocks that fit a buffer are all put into it. -/
theorem fitting_of_le {len offset : Nat} {cs : List Chunk}
    (h : offset + (cs.flatMap Chunk.bytes).length ≤ len) :
    fitting len offset cs =
      (cs.flatMap Chunk.bytes, .ok (offset + (cs.flatMap Chunk.bytes).length)) := by
  induction cs generalizing offset with
  | nil => rfl
  | cons c cs ih =>
    rw [List.flatMap_cons, List.length_append] at h ⊢
    have hc : offset + c.bytes.length ≤ len := by omega
    have hcs : fitting len (offset + c.bytes.length) cs = _ := ih (by omega)
    rw [fitting, if_pos hc, hcs, Nat.add_assoc]

/-- Blocks that do not fit a buffer run out of its bounds. -/
theorem fitting_of_lt {len offset : Nat} {cs : List Chunk} (hoffset : offset ≤ len)
    (h : len < offset + (cs.flatMap Chunk.bytes).length) :
    ∃ path start need, (fitting len offset cs).2 = .error (.outOfBounds path start need len) := by
  induction cs generalizing offset with
  | nil =>
    rw [List.flatMap_nil, List.length_nil] at h
    omega
  | cons c cs ih =>
    rw [List.flatMap_cons, List.length_append] at h
    by_cases hc : offset + c.bytes.length ≤ len
    · rw [fitting, if_pos hc]
      exact ih hc (by omega)
    · rw [fitting, if_neg hc]
      exact ⟨c.path, offset, c.bytes.length, rfl⟩

/-- An output goes into a buffer that has room for it, and ends behind its bytes or at its
error. -/
theorem into_of_le {out : Output} {buf : List UInt8} {offset : Nat}
    (h : offset + out.bytes.length ≤ buf.length) :
    out.into buf offset = (overwrite buf offset out.bytes,
      match out.fault with
      | some e => .error e
      | none => .ok (offset + out.bytes.length)) := by
  unfold Output.into
  rw [fitting_of_le h]
  cases out.fault <;> rfl

theorem into_of_lt {out : Output} {buf : List UInt8} {offset : Nat} (hoffset : offset ≤ buf.length)
    (h : buf.length < offset + out.bytes.length) :
    ∃ path start need,
      (out.into buf offset).2 = .error (.outOfBounds path start need buf.length) := by
  obtain ⟨path, start, need, hfit⟩ := fitting_of_lt hoffset h
  refine ⟨path, start, need, ?_⟩
  unfold Output.into
  simp only [hfit]

/-- A buffer before and after bytes were put at an offset: it holds them there, and is as it
was everywhere else. -/
structure Placed (before after : List UInt8) (offset : Nat) (bs : List UInt8) : Prop where
  length_eq : after.length = before.length
  inside : (after.drop offset).take bs.length = bs
  outside : ∀ i, i < offset ∨ offset + bs.length ≤ i → after[i]? = before[i]?

theorem placed_overwrite {buf bs : List UInt8} {offset : Nat}
    (h : offset + bs.length ≤ buf.length) : Placed buf (overwrite buf offset bs) offset bs := by
  have htake : (buf.take offset).length = offset := List.length_take_of_le (by omega)
  refine ⟨?_, ?_, ?_⟩
  · simp only [overwrite, List.length_append, List.length_take, List.length_drop]
    omega
  · rw [overwrite, List.append_assoc, List.drop_left' htake, List.take_left]
  · intro i hi
    rw [overwrite]
    rcases hi with hi | hi
    · rw [List.append_assoc, List.getElem?_append_left (by omega), List.getElem?_take_of_lt hi]
    · have hlen : (buf.take offset ++ bs).length = offset + bs.length := by
        rw [List.length_append, htake]
      rw [List.getElem?_append_right (by omega), hlen, List.getElem?_drop]
      congr 1
      omega

end WireSchema.Wire

namespace WireSchema.Codec

open Wire Outcome

/-! ## The codec -/

theorem agree_output (c : Codec) (type : String) (v : Value) :
    Agree (c.size type v) (c.output type v) (v.form c.layouts (.embedded type)) :=
  agree_writeStruct c.layouts maxDepth type v (.start type)

section Sized

variable {c : Codec} {type : String} {v : Value} {n : Nat} (h : c.size type v = .ok n)
include h

/-- A value that has a size is put out as its form, without an error. -/
theorem output_of_size : (c.output type v).fault = none ∧
    (c.output type v).bytes = v.form c.layouts (.embedded type) ∧
    (v.form c.layouts (.embedded type)).length = n := by
  have hagree := agree_output c type v
  rw [h] at hagree
  exact hagree

theorem marshal_of_size {buf : List UInt8} {offset : Nat} (hroom : offset + n ≤ buf.length) :
    c.marshal type v buf offset =
      (overwrite buf offset (v.form c.layouts (.embedded type)), .ok (offset + n)) := by
  obtain ⟨hfault, hbytes, hlen⟩ := output_of_size h
  have hfits : offset + (c.output type v).bytes.length ≤ buf.length := by rwa [hbytes, hlen]
  rw [marshal, into_of_le hfits, hfault, hbytes, hlen]

theorem marshal_out_of_bounds {buf : List UInt8} {offset : Nat} (hoffset : offset ≤ buf.length)
    (hroom : buf.length < offset + n) :
    ∃ path start need,
      (c.marshal type v buf offset).2 = .error (.outOfBounds path start need buf.length) := by
  obtain ⟨_, hbytes, hlen⟩ := output_of_size h
  exact into_of_lt hoffset (by rwa [hbytes, hlen])

theorem encode_of_size : c.encode type v = .ok (v.form c.layouts (.embedded type)) := by
  obtain ⟨_, _, hlen⟩ := output_of_size h
  have hroom : 0 + n ≤ (List.replicate n (0 : UInt8)).length := by simp
  rw [encode, h, ok_bind, marshal_of_size h hroom]
  simp [overwrite, hlen, pure, Except.pure]

/-- The form of a struct that has a size is made of what the writer puts out for each field. -/
theorem fieldForm_of_size : ∃ s, c.layouts.get? type = some s ∧
    ∀ f ∈ s.fields, ∃ x, v.field? f.name = some x ∧
      (write (writeStruct c.layouts (maxDepth - 1)) f.layout x
        ((Path.start type).field f.name)).bytes = v.fieldForm c.layouts f := by
  obtain ⟨s, hs, hrest⟩ := bind_eq_ok.1 h
  obtain ⟨fields, hfields, hsum⟩ := bind_eq_ok.1 hrest
  obtain ⟨_, hall, rfl⟩ := fieldValues_eq_ok.1 hfields
  refine ⟨s, lookup_eq_ok.1 hs, fun f hf => ?_⟩
  obtain ⟨x, hx⟩ := hall f hf
  obtain ⟨_, m, hm⟩ := size_of_sumSizes hsum (List.mem_map_of_mem hf)
  rw [hx, Option.getD_some] at hm
  have hagree := agree_write (agree_writeStruct c.layouts (maxDepth - 1)) f.layout x
    ((Path.start type).field f.name)
  rw [show Wire.size (structSize c.layouts (maxDepth - 1)) f.layout x _ = .ok m from hm] at hagree
  exact ⟨x, hx, by rw [hagree.2.1, Value.fieldForm, hx]⟩

end Sized

theorem marshal_of_size_error {c : Codec} {type : String} {v : Value} {e : WireError}
    (h : c.size type v = .error e) {buf : List UInt8} {offset : Nat}
    (hoffset : offset ≤ buf.length) :
    (c.marshal type v buf offset).2 = .error e ∨ ∃ path start need,
      (c.marshal type v buf offset).2 = .error (.outOfBounds path start need buf.length) := by
  have hfault := agree_output c type v
  rw [h] at hfault
  by_cases hroom : offset + (c.output type v).bytes.length ≤ buf.length
  · left
    rw [marshal, into_of_le hroom, show (c.output type v).fault = some e from hfault]
  · right
    exact into_of_lt hoffset (by omega)

/-- Measuring, marshalling and encoding tell the same of every value. A value that has a size
is encoded as its form, which has that length and is made of what the writer puts out for each
field, in order of declaration; it is marshalled exactly where it has room, and then nothing
else of the buffer changes. A value without a size is not encoded, for the same reason, and
not marshalled, for the same reason or because the buffer ends before. So an error of
marshalling is one of measuring or of the buffer's end. -/
theorem size_marshal_and_encode_agree (c : Codec) (type : String) (v : Value) :
    (∀ n, c.size type v = .ok n →
      let form := v.form c.layouts (.embedded type)
      form.length = n ∧ c.encode type v = .ok form ∧
      (∃ s, c.layouts.get? type = some s ∧
        form = s.fields.flatMap (v.fieldForm c.layouts) ∧
        ∀ f ∈ s.fields, ∃ x, v.field? f.name = some x ∧
          (write (writeStruct c.layouts (maxDepth - 1)) f.layout x
            ((Path.start type).field f.name)).bytes = v.fieldForm c.layouts f) ∧
      ∀ buf offset, offset ≤ buf.length →
        ((∃ stop, (c.marshal type v buf offset).2 = .ok stop) ↔ offset + n ≤ buf.length) ∧
        ∀ stop, (c.marshal type v buf offset).2 = .ok stop →
          stop = offset + n ∧ Placed buf (c.marshal type v buf offset).1 offset form) ∧
    (∀ e, c.size type v = .error e →
      c.encode type v = .error e ∧
      ∀ buf offset, offset ≤ buf.length →
        (c.marshal type v buf offset).2 = .error e ∨ ∃ path start need,
          (c.marshal type v buf offset).2 = .error (.outOfBounds path start need buf.length)) ∧
    (∀ buf offset e, offset ≤ buf.length → (c.marshal type v buf offset).2 = .error e →
      (∀ path start need len, e ≠ .outOfBounds path start need len) →
      c.size type v = .error e) := by
  refine ⟨?_, ?_, ?_⟩
  · intro n hn
    obtain ⟨_, _, hlen⟩ := output_of_size hn
    obtain ⟨s, hs, hfields⟩ := fieldForm_of_size hn
    refine ⟨hlen, encode_of_size hn, ⟨s, hs, Value.form_embedded hs v, hfields⟩, ?_⟩
    intro buf offset hoffset
    by_cases hroom : offset + n ≤ buf.length
    · rw [marshal_of_size hn hroom]
      refine ⟨⟨fun _ => hroom, fun _ => ⟨_, rfl⟩⟩, ?_⟩
      rintro stop ⟨⟩
      exact ⟨rfl, placed_overwrite (by rwa [hlen])⟩
    · obtain ⟨path, start, need, herr⟩ := marshal_out_of_bounds hn hoffset (by omega)
      rw [herr]
      refine ⟨⟨?_, fun h => absurd h hroom⟩, ?_⟩
      · rintro ⟨stop, ⟨⟩⟩
      · rintro stop ⟨⟩
  · intro e he
    refine ⟨?_, fun buf offset hoffset => marshal_of_size_error he hoffset⟩
    rw [encode, he, error_bind]
  · intro buf offset e hoffset he hne
    cases hsize : c.size type v with
    | error e' =>
      rcases marshal_of_size_error hsize hoffset with h | ⟨path, start, need, h⟩
      · rw [he] at h
        exact h.symm
      · rw [he] at h
        cases h
        exact absurd rfl (hne path start need buf.length)
    | ok n =>
      by_cases hroom : offset + n ≤ buf.length
      · rw [marshal_of_size hsize hroom] at he
        cases he
      · obtain ⟨path, start, need, h⟩ := marshal_out_of_bounds hsize hoffset (by omega)
        rw [he] at h
        cases h
        exact absurd rfl (hne path start need buf.length)

/-- A struct of a short number and a text: eight bytes, which fill a buffer of ten from the
third on and leave the first two as they were. -/
theorem a_number_and_a_text_agree :
    let c := ofLayout ⟨1, "p", .little, [⟨"S", [⟨"A", .fixed .u16⟩, ⟨"B", .string⟩]⟩]⟩
    let v := Value.struct [("B", .string "hi"), ("A", .int 258)]
    c.encode "S" v = .ok [2, 1, 2, 0, 0, 0, 104, 105] ∧
      Placed (List.replicate 10 7) (c.marshal "S" v (List.replicate 10 7) 2).1 2
        [2, 1, 2, 0, 0, 0, 104, 105] := by
  intro c v
  have hsize : c.size "S" v = .ok 8 := by rfl
  have hform : v.form c.layouts (.embedded "S") = [2, 1, 2, 0, 0, 0, 104, 105] := by rfl
  obtain ⟨_, hencode, _, hmarshal⟩ := (size_marshal_and_encode_agree c "S" v).1 8 hsize
  obtain ⟨hfits, hplaced⟩ := hmarshal (List.replicate 10 7) 2 (by decide)
  obtain ⟨stop, hstop⟩ := hfits.2 (by decide)
  rw [hform] at hencode hplaced
  exact ⟨hencode, (hplaced stop hstop).2⟩

end WireSchema.Codec
