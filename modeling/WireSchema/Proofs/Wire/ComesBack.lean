-- The walks come back: a walk through a value that succeeds has its path and its depth as they
-- were, whatever it went through. So the walk that keeps account of both is the function that is
-- told its path and its room from the outside, and from the start it is the one of the codec.
import WireSchema.Proofs.Wire.Walk

namespace WireSchema

namespace Wire

open Outcome Walk

/-! ## Measuring -/

section Measures

variable {σ α β : Type}

/-- A walk finds out what is told at its path and its depth, and leaves its place as it is. -/
def Finds (m : Walking σ α) (told : Path → Nat → Except WireError α) : Prop :=
  Follows m fun path depth site => told path depth >>= fun a => .ok (a, site)

variable {m : Walking σ α} {told : Path → Nat → Except WireError α}

theorem Finds.congr {other : Path → Nat → Except WireError α} (h : Finds m told)
    (heq : ∀ path depth, other path depth = told path depth) : Finds m other :=
  Follows.congr h fun path depth _ => by rw [heq]

theorem finds_pure (a : α) : Finds (pure a : Walking σ α) fun _ _ => pure a := follows_pure a

theorem finds_here (x : Path → Except WireError α) :
    Finds (here x : Walking σ α) fun path _ => x path := by
  intro w
  dsimp only
  unfold here
  cases x w.path <;> rfl

theorem Finds.bind {k : α → Walking σ β} {after : α → Path → Nat → Except WireError β}
    (h : Finds m told) (hk : ∀ a, Finds (k a) (after a)) :
    Finds (m >>= k) fun path depth => told path depth >>= fun a => after a path depth := by
  refine (Follows.bind h hk).congr fun path depth site => ?_
  dsimp only
  cases told path depth <;> rfl

theorem Finds.inside (s : Segment) (h : Finds m told) :
    Finds (inside s m) fun path depth => told (path.push s) depth := Follows.inside s h

theorem Finds.within (d : DocumentLayout) (type : String) {body : StructLayout → Walking σ α}
    {told : StructLayout → Path → Nat → Except WireError α} (h : ∀ s, Finds (body s) (told s)) :
    Finds (within d type body) fun path depth =>
      if maxDepth ≤ depth then .error (.depthExceeded path)
      else lookup d type >>= fun s => told s path (depth + 1) := by
  refine (Follows.within d type h).congr fun path depth site => ?_
  dsimp only
  split
  · rfl
  · rw [bind_assoc]

/-- The parts of a sum are found out one after the other. -/
theorem Finds.total {size : Nat → α → Walking σ Nat}
    {told : Nat → α → Path → Nat → Except WireError Nat}
    (h : ∀ i x, Finds (size i x) (told i x)) (xs : List α) :
    Finds (total size xs) fun path depth => sumSizes (fun i x => told i x path depth) xs := by
  unfold Walk.total sumSizes
  generalize xs.zipIdx = parts
  suffices hall : ∀ start, Finds
      (parts.foldlM (fun total x => return total + (← size x.2 x.1)) start)
      fun path depth =>
        parts.foldlM (fun total x => return total + (← told x.2 x.1 path depth)) start from hall 0
  induction parts with
  | nil => exact finds_pure
  | cons x parts ih =>
    intro start
    simp only [List.foldlM_cons, bind_assoc, pure_bind]
    exact (h x.2 x.1).bind fun n => ih (start + n)

end Measures

/-- How many structs may still be entered, with so many rounds left. -/
def roomFor (rounds depth : Nat) : Nat := min rounds (maxDepth - depth)

theorem roomFor_zero (depth : Nat) : roomFor 0 depth = 0 := Nat.zero_min _

theorem roomFor_of_deep {rounds depth : Nat} (h : maxDepth ≤ depth) : roomFor rounds depth = 0 := by
  unfold roomFor
  omega

theorem roomFor_succ {rounds depth : Nat} (h : ¬ maxDepth ≤ depth) :
    roomFor (rounds + 1) depth = roomFor rounds (depth + 1) + 1 := by
  unfold roomFor
  omega

variable {d : DocumentLayout}

/-- The walk that measures a value finds its size, if the walk through structs does. -/
theorem finds_size {walking : String → Value → Walking Unit Nat}
    {told : Nat → OnStruct (Except WireError Nat)}
    (h : ∀ type v, Finds (walking type v) fun path depth => told depth type v path)
    (l : Layout) (v : Value) :
    Finds (Walk.size walking l v) fun path depth => size (told depth) l v path := by
  induction l generalizing v with
  | fixed scalar => exact (finds_here _).bind fun _ => finds_pure _
  | nullable scalar =>
    cases v with
    | null => exact finds_pure _
    | _ => exact (finds_here _).bind fun _ => finds_pure _
  | string => exact (finds_here _).bind fun _ => (finds_here _).bind fun _ => finds_pure _
  | fixedBytes len => exact (finds_here _).bind fun _ => (finds_here _).bind fun _ => finds_pure _
  | dynamicBytes => exact (finds_here _).bind fun _ => (finds_here _).bind fun _ => finds_pure _
  | fixedArray len elem ih =>
    have hitems (xs : List Value) := Finds.total (fun i x => (ih x).inside (.index i)) xs
    exact (finds_here _).bind fun xs => (finds_here _).bind fun _ => hitems xs
  | dynamicArray elem ih =>
    have hitems (xs : List Value) := (Finds.total (fun i x => (ih x).inside (.index i)) xs).bind
      fun n => finds_pure (countWidth + n)
    exact (finds_here _).bind fun xs => (finds_here _).bind fun _ => hitems xs
  | map key value ihk ihv =>
    have hentry (i : Nat) (e : Value × Value) := ((ihk e.1).bind fun m => (ihv e.2).bind fun n =>
      finds_pure (m + n)).inside (.index i)
    have hentries (es : List (Value × Value)) := (Finds.total hentry es).bind fun n =>
      finds_pure (countWidth + n)
    exact (finds_here _).bind fun es => (finds_here _).bind fun _ => hentries es
  | embedded type => exact h type v

/-- The walk that measures a struct finds its size, with the room that its depth leaves. -/
theorem finds_sizeStruct (rounds : Nat) (type : String) (v : Value) :
    Finds (Walk.sizeStruct d rounds type v) fun path depth =>
      structSize d (roomFor rounds depth) type v path := by
  induction rounds generalizing type v with
  | zero =>
    refine (finds_here _).congr fun path depth => ?_
    rw [roomFor_zero]
    rfl
  | succ rounds ih =>
    have hfields (s : StructLayout) := (finds_here (fieldValues s v)).bind fun fields =>
      Finds.total (fun _ f => (finds_size ih f.1.layout f.2).inside (.field f.1.name)) fields
    refine (Finds.within d type hfields).congr fun path depth => ?_
    by_cases hdeep : maxDepth ≤ depth
    · rw [if_pos hdeep, roomFor_of_deep hdeep]
      rfl
    · rw [if_neg hdeep, roomFor_succ hdeep]
      rfl

/-! ## Writing -/

namespace Writer

theorem run_append (w : Writer) (as bs : List Chunk) : w.run (as ++ bs) =
    match w.run as with
    | (last, none) => last.run bs
    | (last, some e) => (last, some e) := by
  induction as generalizing w with
  | nil => rfl
  | cons c as ih =>
    rw [List.cons_append, run, run]
    cases w.put c with
    | ok next => exact ih next
    | error e => rfl

end Writer

/-- What an output makes of a writer that puts it. -/
def Output.onto (out : Output) (w : Writer) : Except WireError Writer :=
  match w.putAll out with
  | (last, none) => .ok last
  | (_, some e) => .error e

namespace Output

theorem onto_done (w : Writer) : done.onto w = .ok w := rfl

theorem onto_put (path : Path) (bs : List UInt8) (w : Writer) :
    (put path bs).onto w = w.put ⟨path, bs⟩ := by
  unfold onto put Writer.putAll Writer.run
  cases w.put ⟨path, bs⟩ <;> rfl

theorem onto_given {α : Type} (x : Except WireError α) (f : α → Output) (w : Writer) :
    (given x f).onto w = x >>= fun a => (f a).onto w := by
  cases x <;> rfl

theorem onto_andThen (a b : Output) (w : Writer) :
    (a.andThen b).onto w = a.onto w >>= b.onto := by
  obtain ⟨chunks, fault⟩ := a
  unfold onto Writer.putAll andThen
  cases fault with
  | some e =>
    dsimp only
    rcases w.run chunks with ⟨last, _ | e'⟩ <;> rfl
  | none =>
    dsimp only
    rw [Writer.run_append]
    rcases w.run chunks with ⟨last, _ | e'⟩ <;> rfl

theorem onto_forEach {α : Type} (write : Nat → α → Output) (xs : List α) (w : Writer) :
    (forEach write xs).onto w = xs.zipIdx.foldlM (fun w x => (write x.2 x.1).onto w) w := by
  unfold forEach
  induction xs.zipIdx generalizing w with
  | nil => rfl
  | cons x parts ih =>
    rw [List.foldr_cons, List.foldlM_cons, onto_andThen]
    exact bind_congr ih

end Output

/-- A walk writes what is told to be put out at its path and its depth. -/
def Puts (m : Walking Writer Unit) (told : Path → Nat → Output) : Prop :=
  Follows m fun path depth w => (told path depth).onto w >>= fun next => .ok ((), next)

section Puts

variable {α : Type} {m next : Walking Writer Unit} {told after : Path → Nat → Output}

theorem Puts.congr {other : Path → Nat → Output} (h : Puts m told)
    (heq : ∀ path depth, other path depth = told path depth) : Puts m other :=
  Follows.congr h fun path depth _ => by rw [heq]

theorem puts_put (bs : List UInt8) : Puts (put bs) fun path _ => .put path bs :=
  (follows_work _).congr fun path _ w => by rw [Output.onto_put]; rfl

theorem puts_given {x : Path → Except WireError α} {k : α → Walking Writer Unit}
    {told : α → Path → Nat → Output} (h : ∀ a, Puts (k a) (told a)) :
    Puts (here x >>= k) fun path depth => Output.given (x path) fun a => told a path depth := by
  refine (Follows.bind (finds_here x) h).congr fun path depth w => ?_
  dsimp only
  rw [Output.onto_given]
  cases x path <;> rfl

theorem Puts.andThen (h : Puts m told) (hnext : Puts next after) :
    Puts (m >>= fun _ => next) fun path depth => (told path depth).andThen (after path depth) := by
  refine (Follows.bind h fun _ => hnext).congr fun path depth w => ?_
  dsimp only
  rw [Output.onto_andThen]
  cases (told path depth).onto w <;> rfl

theorem Puts.inside (s : Segment) (h : Puts m told) :
    Puts (inside s m) fun path depth => told (path.push s) depth := Follows.inside s h

theorem Puts.within (d : DocumentLayout) (type : String) {body : StructLayout → Walking Writer Unit}
    {told : StructLayout → Path → Nat → Output} (h : ∀ s, Puts (body s) (told s)) :
    Puts (within d type body) fun path depth =>
      if maxDepth ≤ depth then .fail (.depthExceeded path)
      else Output.given (lookup d type) fun s => told s path (depth + 1) := by
  refine (Follows.within d type h).congr fun path depth w => ?_
  dsimp only
  split
  · rfl
  · rw [Output.onto_given, bind_assoc]

theorem Puts.forEach {write : Nat → α → Walking Writer Unit} {told : Nat → α → Path → Nat → Output}
    (h : ∀ i x, Puts (write i x) (told i x)) (xs : List α) :
    Puts (each write xs) fun path depth => Output.forEach (fun i x => told i x path depth) xs := by
  unfold each Output.forEach
  induction xs.zipIdx with
  | nil => exact follows_pure ()
  | cons x parts ih => exact (h x.2 x.1).andThen ih

end Puts

theorem puts_putCounted (bs : List UInt8) :
    Puts (putCounted bs) fun path _ => writeCounted path bs :=
  puts_given fun n => (puts_put (Bytes.little countWidth n)).andThen (puts_put bs)

/-- The walk that writes a value puts out what its writer does, if the walk through structs does. -/
theorem puts_write {walking : String → Value → Walking Writer Unit} {told : Nat → OnStruct Output}
    (h : ∀ type v, Puts (walking type v) fun path depth => told depth type v path)
    (l : Layout) (v : Value) :
    Puts (Walk.write walking l v) fun path depth => write (told depth) l v path := by
  induction l generalizing v with
  | fixed scalar => exact puts_given fun bs => puts_put bs
  | nullable scalar =>
    cases v with
    | null => exact puts_put [0]
    | _ => exact puts_given fun bs => (puts_put [1]).andThen (puts_put bs)
  | string => exact puts_given fun bs => puts_putCounted bs
  | fixedBytes len => exact puts_given fun bs => puts_given fun _ => puts_put bs
  | dynamicBytes => exact puts_given fun bs => puts_putCounted bs
  | fixedArray len elem ih =>
    have hitems (xs : List Value) := Puts.forEach (fun i x => (ih x).inside (.index i)) xs
    exact puts_given fun xs => puts_given fun _ => hitems xs
  | dynamicArray elem ih =>
    have hitems (xs : List Value) := Puts.forEach (fun i x => (ih x).inside (.index i)) xs
    exact puts_given fun xs => puts_given fun n => (puts_put _).andThen (hitems xs)
  | map key value ihk ihv =>
    have hentry (i : Nat) (e : Value × Value) := ((ihk e.1).andThen (ihv e.2)).inside (.index i)
    have hentries (es : List (Value × Value)) := Puts.forEach hentry es
    exact puts_given fun es => puts_given fun n => (puts_put _).andThen (hentries es)
  | embedded type => exact h type v

theorem puts_writeStruct (rounds : Nat) (type : String) (v : Value) :
    Puts (Walk.writeStruct d rounds type v) fun path depth =>
      writeStruct d (roomFor rounds depth) type v path := by
  induction rounds generalizing type v with
  | zero =>
    refine Follows.congr (finds_here _) fun path depth w => ?_
    dsimp only
    rw [roomFor_zero]
    rfl
  | succ rounds ih =>
    have hfield (f : FieldLayout × Value) := (puts_write ih f.1.layout f.2).inside
      (.field f.1.name)
    have hall (fields : List (FieldLayout × Value)) := Puts.forEach (fun _ => hfield) fields
    have hfields (s : StructLayout) := puts_given (x := fieldValues s v) hall
    refine (Puts.within d type hfields).congr fun path depth => ?_
    by_cases hdeep : maxDepth ≤ depth
    · rw [if_pos hdeep, roomFor_of_deep hdeep]
      rfl
    · rw [if_neg hdeep, roomFor_succ hdeep]
      rfl

/-! ## Reading -/

section Reads

variable {α : Type}

theorem Follows.many {read : Nat → Walking Input α}
    {told : Nat → Path → Nat → Input → Except WireError (α × Input)}
    (h : ∀ i, Follows (read i) (told i)) (n i : Nat) (seen : List α) :
    Follows (many read n i seen) fun path depth input =>
      readMany (fun i input => told i path depth input) n i seen input := by
  induction n generalizing i seen with
  | zero => exact follows_pure _
  | succ n ih =>
    refine ((h i).bind fun x => ih (i + 1) (x :: seen)).congr fun path depth input => ?_
    rw [readMany]
    cases told i path depth input <;> rfl

theorem Follows.named {read : FieldLayout → Walking Input Value}
    {told : FieldLayout → Path → Nat → Input → Except WireError (Value × Input)}
    (h : ∀ f, Follows (read f) (told f)) (fields : List FieldLayout) :
    Follows (named read fields) fun path depth input =>
      readFields (fun f input => told f path depth input) fields input := by
  induction fields with
  | nil => exact follows_pure _
  | cons f fields ih => exact (h f).bind fun v => ih.bind fun vs => follows_pure _

end Reads

/-- The walk that reads a value reads as told, if the walk through structs does. -/
theorem follows_read (widths : MinWidths) {walking : String → Walking Input Value}
    {told : Nat → ReadStruct}
    (h : ∀ type, Follows (walking type) fun path depth => told depth type path) (l : Layout) :
    Follows (Walk.read widths walking l) fun path depth => read widths (told depth) l path := by
  induction l with
  | fixed scalar => exact follows_work _
  | nullable scalar =>
    have hflag (flag : List UInt8) : Follows
        (if Bytes.ofLittle flag = 0 then pure .null else work (readScalar scalar))
        fun path _ input =>
          if Bytes.ofLittle flag = 0 then .ok (.null, input) else readScalar scalar path input := by
      split
      · exact follows_pure _
      · exact follows_work _
    exact (follows_work _).bind hflag
  | string => exact follows_work _
  | fixedBytes len => exact (follows_work _).bind fun _ => follows_pure _
  | dynamicBytes => exact (follows_work _).bind fun _ => follows_pure _
  | fixedArray len elem ih =>
    exact (Follows.many (fun i => ih.inside (.index i)) _ _ _).bind fun _ => follows_pure _
  | dynamicArray elem ih =>
    have hitems (n : Nat) := (Follows.many (fun i => ih.inside (.index i)) n 0 []).bind fun xs =>
      follows_pure (Value.array xs)
    exact (follows_work _).bind hitems
  | map key value ihk ihv =>
    have hentry := ihk.bind fun k => ihv.bind fun v => follows_pure (k, v)
    have hentries (n : Nat) := (Follows.many (fun i => hentry.inside (.index i)) n 0 []).bind
      fun es => follows_pure (Value.map es)
    exact (follows_work _).bind hentries
  | embedded type => exact h type

theorem follows_readStruct {widths : MinWidths} (rounds : Nat) (type : String) :
    Follows (Walk.readStruct d widths rounds type) fun path depth =>
      readStruct d widths (roomFor rounds depth) type path := by
  induction rounds generalizing type with
  | zero =>
    refine Follows.congr (finds_here _) fun path depth w => ?_
    dsimp only
    rw [roomFor_zero]
    rfl
  | succ rounds ih =>
    have hfield (f : FieldLayout) := (follows_read widths ih f.layout).inside (.field f.name)
    have hfields (s : StructLayout) := (Follows.named hfield s.fields).bind fun fields =>
      follows_pure (Value.struct fields)
    refine (Follows.within d type hfields).congr fun path depth input => ?_
    by_cases hdeep : maxDepth ≤ depth
    · rw [if_pos hdeep, roomFor_of_deep hdeep]
      rfl
    · rw [if_neg hdeep, roomFor_succ hdeep, readStruct]
      unfold lookup
      cases d.get? type <;> rfl

/-! ## From the start -/

/-- An output goes into a buffer as a writer puts it there. -/
theorem into_eq_onto (out : Output) (buf : List UInt8) (offset : Nat) :
    match out.onto ⟨buf, offset⟩ with
    | .ok w => out.into buf offset = (w.buf, .ok w.pos)
    | .error e => (out.into buf offset).2 = .error e := by
  by_cases hoffset : offset ≤ buf.length
  · rw [into_eq_putAll hoffset]
    unfold Output.onto
    rcases Writer.putAll ⟨buf, offset⟩ out with ⟨w, _ | e⟩ <;> rfl
  · -- Behind the end of the buffer nothing fits, not even an empty block.
    obtain ⟨chunks, fault⟩ := out
    unfold Output.onto Writer.putAll Output.into
    cases chunks with
    | nil =>
      unfold Writer.run fitting
      cases fault with
      | none => exact congrArg (·, _) (Writer.overwrite_nil buf offset)
      | some e => rfl
    | cons c cs =>
      have hlong : ¬ offset + c.bytes.length ≤ buf.length := by omega
      unfold Writer.run Writer.put fitting
      rw [if_neg hlong, if_neg hlong]

end Wire

namespace Codec

open Wire Walk

/-- The walk that measures a value. -/
def measuring (c : Codec) : Layout → Value → Walking Unit Nat :=
  Walk.size (Walk.sizeStruct c.layouts maxDepth)

/-- The walk that writes a value. -/
def writing (c : Codec) : Layout → Value → Walking Writer Unit :=
  Walk.write (Walk.writeStruct c.layouts maxDepth)

/-- The walk that reads a value. -/
def reading (c : Codec) : Layout → Walking Input Value :=
  Walk.read c.widths (Walk.readStruct c.layouts c.widths maxDepth)

variable {c : Codec} {type : String}

theorem finds_measuring (c : Codec) (l : Layout) (v : Value) :
    Finds (c.measuring l v) fun path depth =>
      Wire.size (structSize c.layouts (roomFor maxDepth depth)) l v path :=
  finds_size (finds_sizeStruct maxDepth) l v

theorem puts_writing (c : Codec) (l : Layout) (v : Value) :
    Puts (c.writing l v) fun path depth =>
      Wire.write (Wire.writeStruct c.layouts (roomFor maxDepth depth)) l v path :=
  puts_write (puts_writeStruct maxDepth) l v

theorem follows_reading (c : Codec) (l : Layout) :
    Wire.Follows (c.reading l) fun path depth =>
      Wire.read c.widths (Wire.readStruct c.layouts c.widths (roomFor maxDepth depth)) l path :=
  follows_read c.widths (follows_readStruct maxDepth) l

/-- Measuring is the walk from the start. -/
theorem measuring_start (c : Codec) (type : String) (v : Value) :
    (c.measuring (.embedded type) v (.start type ())).1 = c.size type v := by
  have hwalk := c.finds_measuring (.embedded type) v
  cases hsize : c.size type v with
  | error e =>
    have htold : (c.size type v >>= fun n => .ok (n, ())) = .error e := by
      rw [hsize]
      rfl
    exact hwalk.of_error (w := .start type ()) htold
  | ok n =>
    have htold : (c.size type v >>= fun n => .ok (n, ())) = .ok (n, ()) := by
      rw [hsize]
      rfl
    rw [hwalk.of_ok (w := .start type ()) htold]

/-- Marshalling is the walk from the start. -/
theorem writing_start (c : Codec) (type : String) (v : Value) (buf : List UInt8) (offset : Nat) :
    match c.writing (.embedded type) v (.start type ⟨buf, offset⟩) with
    | (.ok _, w) => c.marshal type v buf offset = (w.site.buf, .ok w.site.pos)
    | (.error e, _) => (c.marshal type v buf offset).2 = .error e := by
  have hwalk := c.puts_writing (.embedded type) v
  have hinto := into_eq_onto (c.output type v) buf offset
  cases honto : (c.output type v).onto ⟨buf, offset⟩ with
  | error e =>
    have htold : ((c.output type v).onto ⟨buf, offset⟩ >>= fun w => .ok ((), w)) = .error e := by
      rw [honto]
      rfl
    have herror := hwalk.of_error (w := .start type ⟨buf, offset⟩) htold
    rcases hw : c.writing (.embedded type) v (.start type ⟨buf, offset⟩) with ⟨result, w⟩
    rw [hw] at herror
    cases herror
    rw [honto] at hinto
    exact hinto
  | ok w =>
    have htold : ((c.output type v).onto ⟨buf, offset⟩ >>= fun w => .ok ((), w)) =
        .ok ((), w) := by
      rw [honto]
      rfl
    rw [hwalk.of_ok (w := .start type ⟨buf, offset⟩) htold]
    rw [honto] at hinto
    exact hinto

/-- Unmarshalling is the walk from the start. -/
theorem reading_start (c : Codec) (type : String) (buf : List UInt8) (offset : Nat) :
    match c.reading (.embedded type) (.start type (.ofBuffer buf offset)) with
    | (.ok v, w) => c.unmarshal type buf offset = .ok (v, w.site.offset)
    | (.error e, _) => c.unmarshal type buf offset = .error e := by
  have hwalk := c.follows_reading (.embedded type)
  have hunfold : c.unmarshal type buf offset =
      Wire.readStruct c.layouts c.widths maxDepth type (.start type) (.ofBuffer buf offset) >>=
        fun r => .ok (r.1, r.2.offset) := rfl
  rw [hunfold]
  cases hread : Wire.readStruct c.layouts c.widths maxDepth type (.start type)
      (.ofBuffer buf offset) with
  | error e =>
    have herror := hwalk.of_error (w := .start type (.ofBuffer buf offset)) hread
    rcases hw : c.reading (.embedded type) (.start type (.ofBuffer buf offset)) with ⟨result, w⟩
    rw [hw] at herror
    cases herror
    rfl
  | ok r =>
    rw [hwalk.of_ok (w := .start type (.ofBuffer buf offset)) hread]
    rfl

end Codec

end WireSchema
