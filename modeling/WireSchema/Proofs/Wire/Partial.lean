-- What a writer that fails leaves behind. It puts block after block into the buffer and stops at
-- the first that does not fit, or at the error of a value. So far it has written a start of what
-- it would have written, and it has touched nothing else.
import WireSchema.Proofs.Wire.Fits

namespace WireSchema.Wire

open Outcome

/-! ## A writer at work -/

/-- A writer in a buffer: what the buffer has become, and where the next block goes. -/
structure Writer where
  buf : List UInt8
  pos : Nat

namespace Writer

/-- Puts a block where the writer stands, if it fits. -/
def put (w : Writer) (c : Chunk) : Except WireError Writer :=
  if w.pos + c.bytes.length ≤ w.buf.length then
    .ok ⟨overwrite w.buf w.pos c.bytes, w.pos + c.bytes.length⟩
  else .error (.outOfBounds c.path w.pos c.bytes.length w.buf.length)

/-- Puts one block after the other: where the writer gets, and why it got no further. -/
def run (w : Writer) : List Chunk → Writer × Option WireError
  | [] => (w, none)
  | c :: cs =>
    match w.put c with
    | .ok next => run next cs
    | .error e => (w, some e)

/-- What a writer has done that started at an offset of a buffer: it has put bytes there, stands
behind them, and has left the rest as it was. -/
structure Wrote (before : List UInt8) (start : Nat) (done : List UInt8) (w : Writer) : Prop where
  buf_eq : w.buf = overwrite before start done
  pos_eq : w.pos = start + done.length
  inside : start + done.length ≤ before.length

variable {before done : List UInt8} {start : Nat} {w next : Writer} {c : Chunk}

theorem overwrite_nil (buf : List UInt8) (offset : Nat) : overwrite buf offset [] = buf := by
  simp [overwrite]

/-- Bytes that are put behind others are put there with them. -/
theorem overwrite_overwrite {buf as bs : List UInt8} {offset : Nat}
    (h : offset + as.length ≤ buf.length) :
    overwrite (overwrite buf offset as) (offset + as.length) bs =
      overwrite buf offset (as ++ bs) := by
  have hlen : (buf.take offset ++ as).length = offset + as.length := by
    rw [List.length_append, List.length_take_of_le (by omega)]
  unfold overwrite
  rw [List.take_left' hlen, ← List.drop_drop, List.drop_left' hlen, List.drop_drop,
    List.length_append, Nat.add_assoc, List.append_assoc (buf.take offset)]

theorem wrote_nil (h : start ≤ before.length) : Wrote before start [] ⟨before, start⟩ := by
  refine ⟨(overwrite_nil before start).symm, rfl, ?_⟩
  rw [List.length_nil]
  omega

theorem Wrote.length_eq (h : Wrote before start done w) : w.buf.length = before.length := by
  rw [h.buf_eq]
  exact (placed_overwrite h.inside).length_eq

/-- A block that fits goes behind what was written, and nothing else changes. -/
theorem Wrote.put (h : Wrote before start done w) (hput : w.put c = .ok next) :
    Wrote before start (done ++ c.bytes) next := by
  unfold Writer.put at hput
  rw [h.length_eq, h.pos_eq] at hput
  by_cases hfits : start + done.length + c.bytes.length ≤ before.length
  · rw [if_pos hfits] at hput
    cases hput
    refine ⟨?_, ?_, ?_⟩
    · rw [h.buf_eq]
      exact overwrite_overwrite h.inside
    · rw [List.length_append, Nat.add_assoc]
    · rw [List.length_append]
      omega
  · rw [if_neg hfits] at hput
    cases hput

/-- Where the next block of a writer is too long for the buffer, it says so. -/
theorem Wrote.put_error (h : Wrote before start done w) {e : WireError}
    (hput : w.put c = .error e) :
    e = .outOfBounds c.path w.pos c.bytes.length before.length ∧
      before.length < w.pos + c.bytes.length := by
  unfold Writer.put at hput
  rw [h.length_eq] at hput
  by_cases hfits : w.pos + c.bytes.length ≤ before.length
  · rw [if_pos hfits] at hput
    cases hput
  · rw [if_neg hfits] at hput
    cases hput
    exact ⟨rfl, by omega⟩

/-- Why a writer got no further than it did: all blocks are written, or the next one leaves the
buffer. -/
def Stopped (before : List UInt8) (w : Writer) (rest : List UInt8) : Option WireError → Prop
  | none => rest = []
  | some e => ∃ path need, e = .outOfBounds path w.pos need before.length ∧
    before.length < w.pos + need ∧ need ≤ rest.length

/-- A run of a writer adds a start of the bytes of its blocks to what was written. -/
theorem Wrote.run (h : Wrote before start done w) (cs : List Chunk) :
    ∃ more rest, more ++ rest = cs.flatMap Chunk.bytes ∧
      Wrote before start (done ++ more) (w.run cs).1 ∧
      Stopped before (w.run cs).1 rest (w.run cs).2 := by
  induction cs generalizing w done with
  | nil => exact ⟨[], [], rfl, by rwa [List.append_nil], rfl⟩
  | cons c cs ih =>
    unfold Writer.run
    rw [List.flatMap_cons]
    cases hput : w.put c with
    | ok next =>
      obtain ⟨more, rest, hall, hwrote, hstopped⟩ := ih (h.put hput)
      rw [List.append_assoc] at hwrote
      refine ⟨c.bytes ++ more, rest, ?_, hwrote, hstopped⟩
      rw [List.append_assoc, hall]
    | error e =>
      obtain ⟨he, hlong⟩ := h.put_error hput
      refine ⟨[], c.bytes ++ cs.flatMap Chunk.bytes, rfl, by rwa [List.append_nil], ?_⟩
      refine ⟨c.path, c.bytes.length, he, hlong, ?_⟩
      rw [List.length_append]
      omega

/-- Puts an output: the run over its blocks, and then the error that it ends with. -/
def putAll (w : Writer) (out : Output) : Writer × Option WireError :=
  match w.run out.chunks with
  | (last, none) => (last, out.fault)
  | (last, some e) => (last, some e)

/-- The answer of a writer that got so far. -/
def answer : Writer × Option WireError → Except WireError Nat
  | (w, none) => .ok w.pos
  | (_, some e) => .error e

/-- The blocks that fit a buffer are those that a writer puts into it. -/
theorem Wrote.fitting (h : Wrote before start done w) (cs : List Chunk) :
    (w.run cs).1.buf = overwrite before start (done ++ (Wire.fitting before.length w.pos cs).1) ∧
      answer (w.run cs) = (Wire.fitting before.length w.pos cs).2 := by
  induction cs generalizing w done with
  | nil =>
    unfold Writer.run Wire.fitting
    refine ⟨?_, rfl⟩
    rw [List.append_nil]
    exact h.buf_eq
  | cons c cs ih =>
    unfold Writer.run Wire.fitting
    cases hput : w.put c with
    | ok next =>
      have hnext := h.put hput
      have hfits : w.pos + c.bytes.length ≤ before.length := by
        have := hnext.inside
        rw [List.length_append] at this
        rw [h.pos_eq]
        omega
      have hpos : next.pos = w.pos + c.bytes.length := by
        rw [hnext.pos_eq, h.pos_eq, List.length_append, Nat.add_assoc]
      rw [if_pos hfits, ← hpos, ← List.append_assoc]
      exact ih hnext
    | error e =>
      obtain ⟨rfl, hlong⟩ := h.put_error hput
      rw [if_neg (by omega), List.append_nil]
      exact ⟨h.buf_eq, rfl⟩

end Writer

open Writer

/-- An output goes into a buffer block by block. -/
theorem into_eq_putAll {buf : List UInt8} {offset : Nat} (h : offset ≤ buf.length)
    (out : Output) : out.into buf offset =
      ((Writer.putAll ⟨buf, offset⟩ out).1.buf, answer (Writer.putAll ⟨buf, offset⟩ out)) := by
  obtain ⟨hbuf, hanswer⟩ := (wrote_nil h).fitting out.chunks
  rw [List.nil_append] at hbuf
  unfold Output.into putAll
  rcases hrun : Writer.run ⟨buf, offset⟩ out.chunks with ⟨last, _ | e⟩
  · rw [hrun] at hbuf hanswer
    simp only [← hbuf, ← hanswer, answer]
    cases out.fault <;> rfl
  · rw [hrun] at hbuf hanswer
    simp only [← hbuf, ← hanswer, answer]

/-- What an output that ends with an error leaves in a buffer: a start of its bytes, behind which
the buffer is as it was. Either the error is its own, and all its bytes are there, or the next block
leaves the buffer. -/
theorem into_error {buf : List UInt8} {offset : Nat} (h : offset ≤ buf.length) {out : Output}
    {e : WireError} (he : (out.into buf offset).2 = .error e) :
    ∃ done rest, done ++ rest = out.bytes ∧ offset + done.length ≤ buf.length ∧
      Placed buf (out.into buf offset).1 offset done ∧
      ((out.fault = some e ∧ rest = []) ∨ ∃ path need,
        e = .outOfBounds path (offset + done.length) need buf.length ∧
        buf.length < offset + done.length + need ∧ need ≤ rest.length) := by
  obtain ⟨done, rest, hall, hwrote, hstopped⟩ := (wrote_nil h).run out.chunks
  rw [List.nil_append] at hwrote
  have hplaced := placed_overwrite hwrote.inside
  rw [← hwrote.buf_eq] at hplaced
  rw [into_eq_putAll h] at he ⊢
  unfold putAll at he ⊢
  rcases hrun : Writer.run ⟨buf, offset⟩ out.chunks with ⟨last, _ | e'⟩
  · simp only [hrun] at hplaced hstopped he
    refine ⟨done, rest, hall, hwrote.inside, hplaced, Or.inl ⟨?_, hstopped⟩⟩
    cases hfault : out.fault with
    | none => simp [hfault, answer] at he
    | some e' => simpa [hfault, answer] using he
  · simp only [hrun] at hwrote hplaced hstopped he
    obtain ⟨path, need, he', hlong, hneed⟩ := hstopped
    cases he
    rw [hwrote.pos_eq] at he' hlong
    exact ⟨done, rest, hall, hwrote.inside, hplaced, Or.inr ⟨path, need, he', hlong, hneed⟩⟩

end WireSchema.Wire

namespace WireSchema.Codec

open Wire

/-- A value that cannot be marshalled leaves a start of itself. The buffer keeps its length, and
nothing changes before the offset or from some place on; what stands between is a start of what the
writer puts out. Where the value has a size, the buffer is too short for it, the error tells the
place at which the next block does not fit, and what stands before that place is a start of the
encoded value. -/
theorem failed_marshal_writes_a_start (c : Codec) (type : String) (v : Value) (buf : List UInt8)
    (offset : Nat) (hoffset : offset ≤ buf.length) (e : WireError)
    (h : (c.marshal type v buf offset).2 = .error e) :
    let after := (c.marshal type v buf offset).1
    after.length = buf.length ∧ ∃ stop, offset ≤ stop ∧ stop ≤ buf.length ∧
      (∀ i, i < offset ∨ stop ≤ i → after[i]? = buf[i]?) ∧
      after.extract offset stop <+: (c.output type v).bytes ∧
      ∀ n, c.size type v = .ok n →
        buf.length < offset + n ∧
        (∃ path need, e = .outOfBounds path stop need buf.length) ∧
        ∃ bs, c.encode type v = .ok bs ∧ after.extract offset stop = bs.take (stop - offset) := by
  intro after
  obtain ⟨done, rest, hall, hinside, hplaced, herror⟩ := into_error hoffset h
  have hdone : after.extract offset (offset + done.length) = done := by
    rw [List.extract_eq_take_drop, Nat.add_sub_cancel_left]
    exact hplaced.inside
  refine ⟨hplaced.length_eq, offset + done.length, by omega, hinside, hplaced.outside, ?_, ?_⟩
  · rw [hdone]
    exact ⟨rest, hall⟩
  · intro n hn
    obtain ⟨hfault, hbytes, hlen⟩ := output_of_size hn
    rcases herror with ⟨hown, _⟩ | ⟨path, need, rfl, hlong, hneed⟩
    · rw [hfault] at hown
      cases hown
    · rw [hbytes] at hall
      refine ⟨?_, ⟨path, need, rfl⟩, _, encode_of_size hn, ?_⟩
      · rw [← hlen, ← hall, List.length_append]
        omega
      · rw [hdone, ← hall, Nat.add_sub_cancel_left, List.take_left]

/-- In a buffer of eight bytes, a struct of a short number and a text that goes to the second byte
has no room for its text. The number and the count of the text are there, and the last byte is as it
was. -/
theorem a_text_is_cut :
    let c := ofLayout ⟨1, "p", .little, [⟨"S", [⟨"A", .fixed .u16⟩, ⟨"B", .string⟩]⟩]⟩
    let v := Value.struct [("A", .int 258), ("B", .string "hi")]
    let after := (c.marshal "S" v (List.replicate 8 7) 1).1
    let text := (Path.start "S").field "B"
    (c.marshal "S" v (List.replicate 8 7) 1).2 = .error (.outOfBounds text 7 2 8) ∧
      after.extract 1 7 = [2, 1, 2, 0, 0, 0] ∧ after[0]? = some 7 ∧ after[7]? = some 7 := by
  intro c v after text
  have hfail : (c.marshal "S" v (List.replicate 8 7) 1).2 = .error (.outOfBounds text 7 2 8) := by
    rfl
  have hsize : c.size "S" v = .ok 8 := by rfl
  have hencode : c.encode "S" v = .ok [2, 1, 2, 0, 0, 0, 104, 105] := by rfl
  obtain ⟨_, stop, _, _, houtside, _, hsized⟩ :=
    failed_marshal_writes_a_start c "S" v (List.replicate 8 7) 1 (by decide) _ hfail
  obtain ⟨_, ⟨path, need, hstop⟩, bs, hbs, hstart⟩ := hsized 8 hsize
  cases hstop
  cases hencode.symm.trans hbs
  exact ⟨hfail, hstart, houtside 0 (Or.inl (by decide)), houtside 7 (Or.inr (by decide))⟩

end WireSchema.Codec
