-- The programs decode as the codec does: the unmarshal program of a struct reads what the codec
-- reads, byte for byte, and refuses what the codec refuses. Only a map can differ: it keeps one
-- entry for each key, where the codec gives every entry of the wire.
import WireSchema.Proofs.Program.Loops
import WireSchema.Proofs.Schema.Checked
import WireSchema.Wire.Codec

namespace WireSchema

open Outcome Wire

/-! ## Programs of shapes -/

namespace Shape

variable {rt : Runtime} {widths : MinWidths} {onStruct : ReadStruct} {nested : ReadNested}

/-- A scalar that was read has no map to collapse. -/
theorem leaves_scalar (rt : Runtime) (n : Nat) (place : Place) (st : Store) (scalar : Scalar)
    (bits : Nat) (input : Input) : Leaves rt n place st (scalar.ofBits bits, input)
      ((st.set place (.value (scalar.ofBits bits))).move input) := by
  have hcollapse : (scalar.ofBits bits).collapse rt.sameKey = scalar.ofBits bits := by
    cases scalar <;> rfl
  have hleaves := leaves_set rt n place st (scalar.ofBits bits) input
  rwa [hcollapse] at hleaves

/-- Numbers of temporaries only go up. -/
theorem le_unmarshalOps (widths : MinWidths) (s : Shape) (place : Place) (n : Nat) :
    n ≤ ((s.unmarshalOps widths place).run n).2 := by
  induction s generalizing place n with
  | fixedArray len type elem ih =>
    exact Nat.le_trans (show n ≤ n + 3 by omega) (ih (.temp ("item" ++ toString (n + 2))) (n + 3))
  | dynamicArray type elem ih =>
    exact Nat.le_trans (show n ≤ n + 4 by omega) (ih (.temp ("item" ++ toString (n + 3))) (n + 4))
  | map keyType valueType key value ihk ihv =>
    have hkey := ihk (.temp ("key" ++ toString (n + 3))) (n + 5)
    exact Nat.le_trans (show n ≤ n + 5 by omega) (Nat.le_trans hkey (ihv _ _))
  | _ => exact Nat.le_refl n

/-- The unmarshal program of a shape follows the codec, and leaves the value in its place. -/
theorem follows_unmarshalOps (hnested : FollowsStructs rt onStruct nested) {s : Shape}
    (hnamed : s.Named) {place : Place} {n : Nat} (hplace : place.Older n) (st : Store)
    (path : Path) :
    Follows (Wire.read widths onStruct s.layout path st.input)
      (Op.receiveAll rt nested ((s.unmarshalOps widths place).run n).1 st)
      (Leaves rt n place st) := by
  induction s generalizing place n st path with
  | fixed scalar =>
    change Follows _ (Op.receiveAll rt nested [.readScalar scalar place] st) _
    rw [Op.receiveAll_one, Op.receive, layout, Wire.read]
    refine (st.input.follows_pullScalar scalar path).andThen ?_
    rintro ⟨v, next⟩ _ ⟨rfl, bits, rfl⟩
    exact ⟨_, rfl, leaves_scalar rt n place st scalar bits next⟩
  | nullable scalar =>
    change Follows _ (Op.receiveAll rt nested [.readNullable scalar place] st) _
    rw [Op.receiveAll_one, Op.receive, layout, Wire.read]
    refine (st.input.follows_pull flagWidth path).bind ?_
    rintro ⟨flag, next⟩ _ rfl
    by_cases hflag : Bytes.ofLittle flag = 0
    · simp only [hflag, if_true]
      exact ⟨_, rfl, leaves_set rt n place st .null next⟩
    · simp only [hflag, if_false]
      refine (next.follows_pullScalar scalar path).andThen ?_
      rintro ⟨v, after⟩ _ ⟨rfl, bits, rfl⟩
      exact ⟨_, rfl, leaves_scalar rt n place st scalar bits after⟩
  | string =>
    change Follows _ (Op.receiveAll rt nested [.readString place] st) _
    rw [Op.receiveAll_one, Op.receive, layout, Wire.read]
    refine (st.input.follows_pullCounted path).bind ?_
    rintro ⟨bs, next⟩ _ rfl
    cases htext : Text.ofBytes? bs with
    | some text =>
      simp only [htext]
      exact ⟨_, rfl, leaves_set rt n place st (.string text) next⟩
    | none =>
      simp only [htext]
      rintro r ⟨⟩
      rfl
  | fixedBytes len =>
    change Follows _ (Op.receiveAll rt nested [.readBytes place (some len)] st) _
    rw [Op.receiveAll_one, Op.receive, layout, Wire.read]
    refine (st.input.follows_pull len.toNat path).bind ?_
    rintro ⟨bs, next⟩ _ rfl
    exact ⟨_, rfl, leaves_set rt n place st (.bytes bs) next⟩
  | dynamicBytes =>
    change Follows _ (Op.receiveAll rt nested [.readBytes place none] st) _
    rw [Op.receiveAll_one, Op.receive, layout, Wire.read]
    refine (st.input.follows_pullCounted path).bind ?_
    rintro ⟨bs, next⟩ _ rfl
    exact ⟨_, rfl, leaves_set rt n place st (.bytes bs) next⟩
  | fixedArray len type elem ih =>
    refine follows_fixedItems (Text.endNumber_append (by decide) n)
      (Text.endNumber_append (by decide) (n + 1)) (Text.endNumber_append (by decide) (n + 2))
      (fun i st => ?_) len st
    exact ih hnamed (Place.older_temp (by decide) (by omega)) st (path.index i)
  | dynamicArray type elem ih =>
    refine follows_countedItems (Text.endNumber_append (by decide) n)
      (Text.endNumber_append (by decide) (n + 1)) (Text.endNumber_append (by decide) (n + 2))
      (Text.endNumber_append (by decide) (n + 3)) (fun i st => ?_) _ path st
    exact ih hnamed (Place.older_temp (by decide) (by omega)) st (path.index i)
  | map keyType valueType key value ihk ihv =>
    have hle := le_unmarshalOps widths key (.temp ("key" ++ toString (n + 3))) (n + 5)
    refine follows_entries (Text.endNumber_append (by decide) n)
      (Text.endNumber_append (by decide) (n + 1)) (Text.endNumber_append (by decide) (n + 2))
      (Text.endNumber_append (by decide) (n + 3)) (Text.endNumber_append (by decide) (n + 4))
      hle (fun i st => ?_) (fun i st => ?_) _ path st
    · exact ihk hnamed.1 (Place.older_temp (by decide) (by omega)) st (path.index i)
    · exact ihv hnamed.2 (Place.older_temp (by decide) hle) st (path.index i)
  | embedded type name =>
    have hname : type.name? = some name := hnamed
    change Follows _ (Op.receiveAll rt nested [.unmarshalNested place type] st) _
    rw [Op.receiveAll_one, Op.receive, hname, layout, Wire.read]
    refine (hnested name path st.input).andThen ?_
    rintro ⟨v, next⟩ _ rfl
    exact ⟨_, rfl, leaves_set rt n place st v next⟩

end Shape

/-! ## Programs of structs -/

section Structs

variable {rt : Runtime} {widths : MinWidths} {onStruct : ReadStruct} {nested : ReadNested}

/-- A struct's fields hold the values that the codec read, one after the other. -/
structure Received (rt : Runtime) (fields : List FieldShape) (st : Store)
    (r : List (String × Value) × Input) (st' : Store) : Prop where
  input : st'.input = r.2
  values : List.Forall₂ (fun f v => v.1 = f.name ∧
    st'.slots (.field f.name) = some (.value (v.2.collapse rt.sameKey))) fields r.1
  others : ∀ name, name ∉ fields.map FieldShape.name →
    st'.slots (.field name) = st.slots (.field name)

/-- The program of all fields follows the codec, whatever numbers its temporaries have. -/
theorem follows_programOf (hnested : FollowsStructs rt onStruct nested)
    {fields : List FieldShape} (hnamed : ∀ f ∈ fields, f.shape.Named)
    (hdiffer : (fields.map FieldShape.name).Nodup) (st : Store) (path : Path) :
    Follows (readFields (fun f => Wire.read widths onStruct f.layout (path.field f.name))
        (fields.map FieldShape.layout) st.input)
      (Op.receiveAll rt nested (programOf (Shape.unmarshalOps widths) fields) st)
      (Received rt fields st) := by
  suffices hall : ∀ n st, Follows
      (readFields (fun f => Wire.read widths onStruct f.layout (path.field f.name))
        (fields.map FieldShape.layout) st.input)
      (Op.receiveAll rt nested
        ((fields.mapM fun f => Shape.unmarshalOps widths f.shape (.field f.name)).run n).1.flatten
        st)
      (Received rt fields st) from hall 0 st
  induction fields with
  | nil =>
    intro n st
    exact ⟨st, rfl, rfl, .nil, fun _ _ => rfl⟩
  | cons f fields ih =>
    intro n st
    obtain ⟨hnew, hrest⟩ := List.nodup_cons.1 hdiffer
    have hf : Follows (Wire.read widths onStruct f.shape.layout (path.field f.name) st.input) _ _ :=
      Shape.follows_unmarshalOps hnested (hnamed f (List.mem_cons_self ..))
        (show (Place.field f.name).Older n from trivial) st (path.field f.name)
    have hfields := ih (fun g hg => hnamed g (List.mem_cons_of_mem f hg)) hrest
    rw [List.map_cons, readFields, List.mapM_cons]
    change Follows _ (Op.receiveAll rt nested (_ ++ List.flatten _) st) _
    rw [Op.receiveAll_append]
    refine hf.bind ?_
    rintro ⟨v, next⟩ st' ⟨rfl, hvalue, hkeeps⟩
    refine (hfields _ st').giving ?_
    rintro ⟨vs, last⟩ st'' ⟨hlast, hvalues, hothers⟩
    refine ⟨_, rfl, hlast, .cons ⟨rfl, (hothers f.name hnew).trans hvalue⟩ hvalues, ?_⟩
    intro name hname
    rw [List.map_cons, List.mem_cons, not_or] at hname
    rw [hothers name hname.2, hkeeps (.field name) trivial (by simpa using hname.1)]

theorem Received.result {t : StructShape} {st st' : Store} {r : List (String × Value) × Input}
    (h : Received rt t.fields st r st') :
    (t.program widths).result st' = .ok (Value.collapse rt.sameKey (.struct r.1)) := by
  have hfields : (t.program widths).fields.mapM
      (fun f => return (f.name, ← st'.value (.field f.name))) =
        .ok (r.1.map fun v => (v.1, v.2.collapse rt.sameKey)) := by
    rw [mapM_eq_ok, StructShape.program, List.forall₂_map_left_iff, List.forall₂_map_right_iff]
    refine h.values.imp fun f v hv => ?_
    rw [FieldShape.layout, Store.value_eq_ok hv.2, hv.1]
    rfl
  rw [StructProgram.result, hfields, Value.collapse, Value.collapseFields_eq]
  rfl

end Structs

/-- The programs of a document follow its codec, however deep they may go beyond it. -/
theorem Document.followsStructs_receive (doc : Document) {shapes : List StructShape}
    (hsound : ∀ s ∈ shapes, s.Sound) (rt : Runtime) {room depth : Nat} (h : room ≤ depth) :
    FollowsStructs rt (readStruct (doc.layoutOf shapes) (doc.layoutOf shapes).minWidths room)
      ((doc.programsOf shapes).receive rt depth) := by
  induction room generalizing depth with
  | zero =>
    rintro type path input r ⟨⟩
  | succ room ih =>
    obtain ⟨depth, rfl⟩ := Nat.exists_eq_add_of_le' h
    have hnested := ih (show room ≤ depth + room by omega)
    intro type path input
    rw [readStruct, Nat.add_succ, DocumentProgram.receive, doc.get?_layoutOf, doc.get?_programsOf]
    cases hs : shapes.find? (·.name == type) with
    | none =>
      rintro r ⟨⟩
    | some t =>
      have ht := hsound t (List.mem_of_find?_eq_some hs)
      refine (follows_programOf hnested ht.named ht.differ ⟨fun _ => none, input⟩ path).bind ?_
      rintro ⟨vs, next⟩ st hreceived
      obtain rfl : st.input = next := hreceived.input
      refine ⟨_, ?_, rfl⟩
      rw [hreceived.result]
      rfl

/-- The programs of a document that is lowered and its codec read the same. Where the codec reads a
value whose maps repeat no key, the unmarshal program reads the same fields and stops at the same
offset, and where the codec refuses the input, the program does so for the same reason. -/
theorem Document.programs_read_as_the_codec (doc : Document) (hdoc : doc.check = .ok ()) :
    ∃ c, Codec.ofDocument doc = .ok c ∧ ∀ p, doc.program = .ok p →
      ∀ (rt : Runtime) (type : String) (buf : List UInt8) (offset depth : Nat),
        maxDepth ≤ depth →
        (∀ v stop, c.unmarshal type buf offset = .ok (v, stop) → v.KeysDiffer rt.sameKey →
          p.unmarshal rt depth type buf offset = .ok (v, stop)) ∧
        ∀ e r, c.unmarshal type buf offset = .error e → e.refusal? = some r →
          p.unmarshal rt depth type buf offset = .error r := by
  obtain ⟨shapes, hsound, hlayout, hprogram⟩ := shaped_of_check hdoc
  refine ⟨Codec.ofLayout (doc.layoutOf shapes), by rw [Codec.ofDocument, hlayout], ?_⟩
  intro p hp rt type buf offset depth hdepth
  obtain ⟨-, rfl⟩ := (hprogram p).1 hp
  have hfollows : Follows ((Codec.ofLayout (doc.layoutOf shapes)).unmarshal type buf offset)
      ((doc.programsOf shapes).unmarshal rt depth type buf offset)
      fun r r' => r' = (r.1.collapse rt.sameKey, r.2) := by
    refine (doc.followsStructs_receive hsound rt hdepth type (.start type)
      (.ofBuffer buf offset)).bind ?_
    rintro ⟨v, next⟩ _ rfl
    exact ⟨_, rfl, rfl⟩
  constructor
  · intro v stop hv hkeys
    rw [hv] at hfollows
    obtain ⟨_, hprogram, rfl⟩ := hfollows
    rw [hprogram, Value.collapse_of_keysDiffer v hkeys]
  · intro e r he hr
    rw [he] at hfollows
    exact hfollows r hr

/-- A map of one entry is read by the program as by the codec, and a buffer that ends inside the
entry is refused. -/
theorem a_map_is_read :
    let rt : Runtime := ⟨fun _ => .null, Value.same⟩
    mapDocument.check = .ok () ∧ ∃ c p, Codec.ofDocument mapDocument = .ok c ∧
      mapDocument.program = .ok p ∧
      p.unmarshal rt maxDepth "S" [1, 0, 0, 0, 1, 0, 255, 255, 255, 255] 0 =
        .ok (.struct [("M", .map [(.uint 1, .int (-1))])], 10) ∧
      p.unmarshal rt maxDepth "S" [1, 0, 0, 0, 1] 0 = .error (.outOfBounds 4 6 5) := by
  intro rt
  obtain ⟨p, hp⟩ : ∃ p, mapDocument.program = .ok p := ⟨_, rfl⟩
  obtain ⟨c, hc, hall⟩ := Document.programs_read_as_the_codec mapDocument check_mapDocument
  have hcodec := hc
  rw [Codec.ofDocument, layout_mapDocument] at hcodec
  cases hcodec
  have hread := hall p hp rt "S"
  refine ⟨check_mapDocument, _, p, hc, hp, ?_, ?_⟩
  · refine (hread _ 0 maxDepth (Nat.le_refl _)).1 _ _ (by rfl) ?_
    exact ⟨⟨⟨trivial, trivial, trivial⟩, List.pairwise_singleton ..⟩, trivial⟩
  · exact (hread _ 0 maxDepth (Nat.le_refl _)).2 _ _ (by rfl) rfl

end WireSchema
