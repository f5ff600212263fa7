-- The programs encode as the codec does: the size program of a struct counts the form of every
-- value that fits, and the marshal program writes it. The shortcuts of size programs are sound
-- because a layout of static width has forms of that width only.
import WireSchema.Proofs.Program.Sending
import WireSchema.Proofs.Schema.Checked
import WireSchema.Proofs.Wire.Normal

namespace WireSchema

open Outcome

/-! ## Widths that do not hang on the value -/

namespace Layout

theorem length_flatMap_const {α : Type} {form : α → List UInt8} {width : Nat} {xs : List α}
    (h : ∀ x ∈ xs, (form x).length = width) : (xs.flatMap form).length = xs.length * width := by
  rw [List.length_flatMap, List.map_congr_left h]
  simp

/-- A layout of static width has forms of that width only. -/
theorem length_of_staticWidth {d : DocumentLayout} {room : Nat} {l : Layout} {v : Value}
    {width : UInt64} (hwidth : l.staticWidth = some width) (h : Wire.Fits d room l v) :
    (v.form d l).length = width.toNat := by
  induction h generalizing width with
  | @fixed _ scalar v bs hbs =>
    cases hwidth
    rw [Value.form, Scalar.form_eq hbs, Scalar.length_bytes hbs]
    cases scalar <;> rfl
  | fixedBytes hlen =>
    cases hwidth
    rw [Value.form, hlen, UInt32.toNat_toUInt64]
  | @fixedArray _ len elem xs hlen _ ih =>
    obtain ⟨w, hw, hmul⟩ := Option.bind_eq_some_iff.1 hwidth
    rw [Value.form, Value.formItems_eq, length_flatMap_const fun x hx => ih x hx hw, hlen,
      Width.ofNat?_eq_some_iff.1 hmul, UInt32.toNat_toUInt64, Nat.mul_comm]
  | _ => cases hwidth

end Layout

/-! ## Programs of shapes -/

/-- Embedded structs down to a depth are sent as their forms. -/
def SendsForms (d : DocumentLayout) (room : Nat) (nested : OnNested) : Prop :=
  ∀ part type v, Wire.Fits d room (.embedded type) v →
    nested part type v = .ok (part.sent (v.form d (.embedded type)))

namespace Shape

open Wire

variable {d : DocumentLayout} {room : Nat} {nested : OnNested}

theorem send_writeCount {fr : Frame} {place : Place} {slot : Slot} {count : Nat}
    (hplace : fr.get place = .ok slot) (hcount : slot.2.count = .ok count) :
    Op.send nested fr (.writeCount place) = .ok (Part.marshal.sent (countForm count)) := by
  simp only [Op.send, hplace, ok_bind, hcount]
  rfl

/-- The marshal program of a shape writes the form of the value at its place. -/
theorem send_marshalOps (hnested : SendsForms d room nested) {s : Shape} {fr : Frame}
    {place : Place} {v : Value} (hplace : fr.get place = .ok (s.layout, v))
    (h : Fits d room s.layout v) (n : Nat) :
    Op.sendAll nested fr ((s.marshalOps place).run n).1 =
      .ok (Part.marshal.sent (v.form d s.layout)) := by
  induction s generalizing fr place v n with
  | fixed scalar =>
    refine Op.sendAll_one ?_
    simp only [layout] at h hplace ⊢
    cases h with
    | fixed hbs =>
      simp only [Op.send, hplace, ok_bind, Scalar.written, hbs, Value.form, Scalar.form_eq hbs]
      rfl
  | nullable scalar =>
    refine Op.sendAll_one ?_
    simp only [layout] at h hplace ⊢
    cases h with
    | absent =>
      simp only [Op.send, hplace, ok_bind]
      rfl
    | present hne hbs =>
      simp only [Op.send, hplace, ok_bind, Scalar.written, hbs, Value.form_present hne,
        Scalar.form_eq hbs]
      rfl
  | string =>
    refine Op.sendAll_one ?_
    simp only [layout] at h hplace ⊢
    cases h with
    | string _ =>
      simp only [Op.send, hplace, ok_bind]
      rfl
  | fixedBytes len =>
    refine Op.sendAll_one ?_
    simp only [layout] at h hplace ⊢
    cases h with
    | @fixedBytes _ _ bs hlen =>
      have hblock : Bytes.block len.toNat bs = bs := by simp [Bytes.block, ← hlen]
      simp only [Op.send, hplace, ok_bind, hblock]
      rfl
  | dynamicBytes =>
    refine Op.sendAll_one ?_
    simp only [layout] at h hplace ⊢
    cases h with
    | dynamicBytes _ =>
      simp only [Op.send, hplace, ok_bind]
      rfl
  | fixedArray len type elem ih =>
    simp only [layout] at h hplace ⊢
    cases h with
    | @fixedArray _ _ _ xs hlen hall =>
      have hcheck : Op.send nested fr (.checkLen place len) = .ok .nothing := by
        simp only [Op.send, hplace, ok_bind, Value.count, hlen, if_true]
        rfl
      rw [Value.form, Value.formItems_eq, ← Sent.nothing_append (Part.sent _ _)]
      refine Op.sendAll_cons hcheck (Op.sendAll_one (Op.send_forEach hplace rfl ?_))
      exact fun x hx _ hitem => ih hitem (hall x hx) (n + 1)
  | dynamicArray type elem ih =>
    simp only [layout] at h hplace ⊢
    cases h with
    | dynamicArray hlen hall =>
      rw [Value.form, Value.formItems_eq, Part.sent_append]
      refine Op.sendAll_cons (send_writeCount hplace rfl) (Op.sendAll_one ?_)
      refine Op.send_forEach hplace rfl ?_
      exact fun x hx _ hitem => ih hitem (hall x hx) (n + 1)
  | map keyType valueType key value ihk ihv =>
    simp only [layout] at h hplace ⊢
    cases h with
    | map hlen hkeys hvalues =>
      rw [Value.form, Value.formEntries_eq, Part.sent_append]
      refine Op.sendAll_cons (send_writeCount hplace rfl) (Op.sendAll_one ?_)
      refine Op.send_forEachEntry hplace ?_ ?_
      · exact fun e he _ hkey => ihk hkey (hkeys e he) (n + 2)
      · exact fun e he _ hvalue => ihv hvalue (hvalues e he) _
  | embedded type name =>
    refine Op.sendAll_one ?_
    simp only [layout] at h hplace ⊢
    simp only [Op.send, hplace, ok_bind]
    exact hnested .marshal name v h

theorem send_const {fr : Frame} (bytes : UInt64) :
    Op.send nested fr (.addSize (.const bytes)) = .ok ⟨bytes.toNat, []⟩ := rfl

/-- The count in front of a container is counted first. -/
theorem sendAll_counted {fr : Frame} {op : Op} {n : Nat} {bs : List UInt8}
    (hop : op.send nested fr = .ok (Part.size.sent bs)) :
    Op.sendAll nested fr [.addSize (.const (.ofNat countWidth)), op] =
      .ok (Part.size.sent (countForm n ++ bs)) := by
  rw [Part.sent_append]
  refine Op.sendAll_cons ?_ (Op.sendAll_one hop)
  rw [send_const, Part.sent, length_countForm]
  rfl

/-- Parts of one width are counted all at once. -/
theorem send_countTimes {α : Type} {fr : Frame} {place : Place} {slot : Slot} {width : UInt64}
    {xs : List α} {form : α → List UInt8} (hplace : fr.get place = .ok slot)
    (hcount : slot.2.count = .ok xs.length) (hwidth : ∀ x ∈ xs, (form x).length = width.toNat) :
    Op.send nested fr (.addSize (.countTimes place width)) =
      .ok (Part.size.sent (xs.flatMap form)) := by
  simp only [Op.send, SizeTerm.measure, hplace, ok_bind, hcount, Part.sent,
    Layout.length_flatMap_const hwidth]
  rfl

/-- The size program of a shape counts the form of the value at its place. -/
theorem send_sizeSteps (hnested : SendsForms d room nested) {s : Shape} {fr : Frame}
    {place : Place} {v : Value} (hmaps : s.layout.NarrowMaps)
    (hplace : fr.get place = .ok (s.layout, v)) (h : Fits d room s.layout v) (n : Nat) :
    Op.sendAll nested fr ((s.sizeSteps place).run n).1 =
      .ok (Part.size.sent (v.form d s.layout)) := by
  induction s generalizing fr place v n with
  | fixed scalar =>
    refine Op.sendAll_one ?_
    rw [send_const, Part.sent, Layout.length_of_staticWidth rfl h]
  | nullable scalar =>
    simp only [layout] at h hplace ⊢
    cases h with
    | absent =>
      have hvalue : Op.send nested fr (.addSize (.optional place (.ofNat scalar.width))) =
          .ok .nothing := by
        simp only [Op.send, SizeTerm.measure, hplace, ok_bind]
        rfl
      exact Op.sendAll_cons (send_const _) (Op.sendAll_one hvalue)
    | present hne hbs =>
      have hwidth : (UInt64.ofNat scalar.width).toNat = scalar.width := by cases scalar <;> rfl
      have hmeasure : SizeTerm.measure nested fr (.optional place (.ofNat scalar.width)) =
          .ok scalar.width := by
        simp only [SizeTerm.measure, hplace, ok_bind, hwidth]
        cases v with
        | null => exact absurd rfl hne
        | _ => rfl
      have hvalue : Op.send nested fr (.addSize (.optional place (.ofNat scalar.width))) =
          .ok (Part.size.sent (scalar.form v)) := by
        rw [Op.send, hmeasure, Scalar.form_eq hbs, Part.sent, Scalar.length_bytes hbs]
        rfl
      rw [Value.form_present hne, ← List.singleton_append, Part.sent_append]
      exact Op.sendAll_cons (send_const _) (Op.sendAll_one hvalue)
  | string =>
    simp only [layout] at h hplace ⊢
    cases h with
    | string _ =>
      refine sendAll_counted ?_
      simp only [Op.send, SizeTerm.measure, hplace, ok_bind]
      rfl
  | fixedBytes len =>
    refine Op.sendAll_one ?_
    rw [send_const, Part.sent, Layout.length_of_staticWidth rfl h]
  | dynamicBytes =>
    simp only [layout] at h hplace ⊢
    cases h with
    | dynamicBytes _ =>
      refine sendAll_counted ?_
      simp only [Op.send, SizeTerm.measure, hplace, ok_bind]
      rfl
  | fixedArray len type elem ih =>
    cases hwidth : (fixedArray len type elem).layout.staticWidth with
    | some bytes =>
      rw [run_sizeSteps_whole hwidth]
      refine Op.sendAll_one ?_
      rw [send_const, Part.sent, Layout.length_of_staticWidth hwidth h]
    | none =>
      rw [run_sizeSteps_fixedItems hwidth]
      simp only [layout] at h hplace ⊢
      cases h with
      | fixedArray hlen hall =>
        rw [Value.form, Value.formItems_eq]
        refine Op.sendAll_one (Op.send_forEach hplace rfl ?_)
        exact fun x hx _ hitem => ih hmaps hitem (hall x hx) (n + 1)
  | dynamicArray type elem ih =>
    cases hwidth : elem.layout.staticWidth with
    | some width =>
      rw [run_sizeSteps_counted hwidth]
      simp only [layout] at h hplace ⊢
      cases h with
      | dynamicArray _ hall =>
        rw [Value.form, Value.formItems_eq]
        refine sendAll_counted (send_countTimes hplace rfl fun x hx => ?_)
        exact Layout.length_of_staticWidth hwidth (hall x hx)
    | none =>
      rw [run_sizeSteps_items hwidth]
      simp only [layout] at h hplace ⊢
      cases h with
      | dynamicArray _ hall =>
        rw [Value.form, Value.formItems_eq]
        refine sendAll_counted (Op.send_forEach hplace rfl ?_)
        exact fun x hx _ hitem => ih hmaps hitem (hall x hx) (n + 1)
  | map keyType valueType key value ihk ihv =>
    obtain ⟨hkeyMaps, hvalueMaps, hsum⟩ := hmaps
    simp only [layout] at h hplace ⊢
    cases h with
    | map _ hkeys hvalues =>
      rw [Value.form, Value.formEntries_eq]
      rcases Layout.staticWidth_cases key.layout value.layout with ⟨k, v, hk, hv⟩ | hnone
      · have hwidth : (k + v).toNat = k.toNat + v.toNat := by
          rw [UInt64.toNat_add, Nat.mod_eq_of_lt (hsum k v hk hv)]
        rw [run_sizeSteps_countedEntries hk hv]
        refine sendAll_counted (send_countTimes hplace rfl fun e he => ?_)
        rw [List.length_append, hwidth, Layout.length_of_staticWidth hk (hkeys e he),
          Layout.length_of_staticWidth hv (hvalues e he)]
      · rw [run_sizeSteps_entries hnone]
        refine sendAll_counted (Op.send_forEachEntry hplace ?_ ?_)
        · exact fun e he _ hkey => ihk hkeyMaps hkey (hkeys e he) (n + 2)
        · exact fun e he _ hvalue => ihv hvalueMaps hvalue (hvalues e he) _
  | embedded type name =>
    refine Op.sendAll_one ?_
    simp only [layout] at h hplace ⊢
    simp only [Op.send, SizeTerm.measure, hplace, ok_bind, hnested .size name v h]
    rfl

end Shape

/-! ## Programs of structs -/

/-- The program of all fields sends them one after the other, whatever numbers their temporaries
have. -/
theorem sendAll_programOf {nested : OnNested} {fr : Frame} {part : Part}
    {lower : Shape → Place → Lowering (List Op)} {fields : List FieldShape}
    {form : FieldShape → List UInt8}
    (h : ∀ f ∈ fields, ∀ n, Op.sendAll nested fr ((lower f.shape (.field f.name)).run n).1 =
      .ok (part.sent (form f))) :
    Op.sendAll nested fr (programOf lower fields) = .ok (part.sent (fields.flatMap form)) := by
  suffices hall : ∀ n, Op.sendAll nested fr
      ((fields.mapM fun f => lower f.shape (.field f.name)).run n).1.flatten =
        .ok (part.sent (fields.flatMap form)) from hall 0
  induction fields with
  | nil =>
    intro n
    rw [List.flatMap_nil, part.sent_nil]
    rfl
  | cons f fields ih =>
    intro n
    have hf := h f (List.mem_cons_self ..) n
    have hfields := ih fun g hg => h g (List.mem_cons_of_mem f hg)
    rw [List.mapM_cons, List.flatMap_cons, part.sent_append]
    exact Op.sendAll_append hf (hfields _)

/-- The place of a field holds the field's value, with the layout of its shape. -/
theorem StructShape.Sound.get_field {t : StructShape} (ht : t.Sound) {widths : MinWidths}
    {f : FieldShape} (hf : f ∈ t.fields) {v x : Value} (hx : v.field? f.name = some x) :
    Frame.get ⟨(t.program widths).fields.map fun f => (f.name, f.layout), v, []⟩
      (.field f.name) = .ok (f.shape.layout, x) := by
  have hlookup : ((t.program widths).fields.map fun f => (f.name, f.layout)).lookup f.name =
      some f.shape.layout := by
    refine lookup_of_nodup ?_ ?_
    · simp only [StructShape.program, List.map_map]
      exact ht.differ
    · simp only [StructShape.program, List.map_map]
      exact List.mem_map.2 ⟨f, hf, rfl⟩
  simp only [Frame.get, hlookup, hx]

/-- The programs of a document send the form of every value that fits, however deep they may
go beyond it. -/
theorem Document.sendsForms_send (doc : Document) {shapes : List StructShape}
    (hsound : ∀ s ∈ shapes, s.Sound) (hmaps : (doc.layoutOf shapes).NarrowMaps) {room depth : Nat}
    (h : room ≤ depth) :
    SendsForms (doc.layoutOf shapes) room ((doc.programsOf shapes).send depth) := by
  induction room generalizing depth with
  | zero =>
    intro part type v hv
    cases hv
  | succ room ih =>
    obtain ⟨depth, rfl⟩ := Nat.exists_eq_add_of_le' h
    intro part type v hv
    cases hv with
    | @struct _ _ s given hs _ hall hfits =>
      have hget := hs
      rw [doc.get?_layoutOf] at hget
      obtain ⟨t, ht, rfl⟩ := Option.map_eq_some_iff.1 hget
      have hmem := List.mem_of_find?_eq_some ht
      have hnested := ih (show room ≤ depth + room by omega)
      rw [Nat.add_succ, DocumentProgram.send, doc.get?_programsOf, ht, Option.map_some,
        Value.form_embedded hs, StructShape.layout, List.flatMap_map]
      have hfield : ∀ f ∈ t.fields, ∃ x, Value.field? (.struct given) f.name = some x ∧
          Wire.Fits (doc.layoutOf shapes) room f.shape.layout x ∧
          Value.fieldForm (doc.layoutOf shapes) (.struct given) f.layout =
            x.form (doc.layoutOf shapes) f.shape.layout := by
        intro f hf
        have hlayout := List.mem_map_of_mem (f := FieldShape.layout) hf
        obtain ⟨x, hx⟩ := hall _ hlayout
        have hx' : Value.field? (.struct given) f.layout.name = some x := hx
        exact ⟨x, hx, hfits _ hlayout x hx, by rw [Value.fieldForm, hx']; rfl⟩
      cases part with
      | size =>
        refine sendAll_programOf fun f hf n => ?_
        obtain ⟨x, hx, hfit, hform⟩ := hfield f hf
        have hnarrow := hmaps _ (List.mem_map_of_mem hmem) _ (List.mem_map_of_mem hf)
        rw [hform]
        exact Shape.send_sizeSteps hnested hnarrow ((hsound t hmem).get_field hf hx) hfit n
      | marshal =>
        refine sendAll_programOf fun f hf n => ?_
        obtain ⟨x, hx, hfit, hform⟩ := hfield f hf
        rw [hform]
        exact Shape.send_marshalOps hnested ((hsound t hmem).get_field hf hx) hfit n

/-- The programs of a document and its codec send the same: for every value that the codec
encodes, the size program counts the bytes and the marshal program writes exactly them, to its
end and without stopping. -/
theorem Document.programs_send_the_encoding (doc : Document) (hdoc : doc.check = .ok ())
    (hmaps : ∀ d, doc.layout = .ok d → d.NarrowMaps) :
    ∃ c p, Codec.ofDocument doc = .ok c ∧ doc.program = .ok p ∧
      ∀ type v bs, c.encode type v = .ok bs →
        c.size type v = .ok bs.length ∧
        ∀ depth, maxDepth ≤ depth →
          p.send depth .size type v = .ok ⟨bs.length, []⟩ ∧
          p.send depth .marshal type v = .ok ⟨0, bs⟩ := by
  obtain ⟨shapes, hsound, hlayout, hprogram⟩ := shaped_of_check hdoc
  have hnarrow := hmaps _ hlayout
  refine ⟨Codec.ofLayout (doc.layoutOf shapes), doc.programsOf shapes, ?_,
    (hprogram _).2 ⟨hnarrow, rfl⟩, ?_⟩
  · rw [Codec.ofDocument, hlayout]
  intro type v bs hbs
  obtain ⟨hfits, rfl⟩ := Codec.encode_eq_ok_iff.1 hbs
  refine ⟨Codec.size_eq_ok_iff.2 ⟨hfits, rfl⟩, fun depth hdepth => ?_⟩
  have hsends := doc.sendsForms_send hsound hnarrow hdepth
  exact ⟨hsends .size type v hfits, hsends .marshal type v hfits⟩

/-- A map of one entry: its count, its key and its value are counted and written. -/
theorem a_map_is_sent :
    mapDocument.check = .ok () ∧ ∃ c p, Codec.ofDocument mapDocument = .ok c ∧
      mapDocument.program = .ok p ∧
      c.encode "S" (.struct [("M", .map [(.uint 1, .int (-1))])]) =
        .ok [1, 0, 0, 0, 1, 0, 255, 255, 255, 255] ∧
      p.send maxDepth .size "S" (.struct [("M", .map [(.uint 1, .int (-1))])]) = .ok ⟨10, []⟩ ∧
      p.send maxDepth .marshal "S" (.struct [("M", .map [(.uint 1, .int (-1))])]) =
        .ok ⟨0, [1, 0, 0, 0, 1, 0, 255, 255, 255, 255]⟩ := by
  have hmaps : ∀ d, mapDocument.layout = .ok d → d.NarrowMaps := by
    intro d hd
    cases layout_mapDocument.symm.trans hd
    exact narrowMaps_mapLayout
  obtain ⟨c, p, hc, hp, hsend⟩ :=
    Document.programs_send_the_encoding mapDocument check_mapDocument hmaps
  have hcodec := hc
  rw [Codec.ofDocument, layout_mapDocument] at hcodec
  cases hcodec
  have hencode : (Codec.ofLayout mapLayout).encode "S"
      (.struct [("M", .map [(.uint 1, .int (-1))])]) =
        .ok [1, 0, 0, 0, 1, 0, 255, 255, 255, 255] := by
    rfl
  obtain ⟨_, hprograms⟩ := hsend "S" _ _ hencode
  exact ⟨check_mapDocument, _, p, hc, hp, hencode, hprograms maxDepth (Nat.le_refl _)⟩

end WireSchema
