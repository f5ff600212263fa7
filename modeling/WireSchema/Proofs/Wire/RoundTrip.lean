-- Reading what was written gives the normal form of the value, wherever the bytes stand in a
-- buffer, and a value that was read is its own normal form.
import WireSchema.Proofs.Schema.Checked
import WireSchema.Proofs.Wire.Reading

namespace WireSchema

open Outcome

namespace Wire

/-! ## What is read is normal -/

/-- Parts that were read one after the other were each read at some place. -/
theorem readMany_eq_ok {α : Type} {read : Nat → Input → Except WireError (α × Input)} {n i : Nat}
    {seen ys : List α} {input last : Input}
    (h : readMany read n i seen input = .ok (ys, last)) :
    ∃ xs, ys = seen.reverse ++ xs ∧ ∀ x ∈ xs, ∃ j start stop, read j start = .ok (x, stop) := by
  induction n generalizing i seen input with
  | zero =>
    cases h
    exact ⟨[], (List.append_nil _).symm, nofun⟩
  | succ n ih =>
    rw [readMany] at h
    cases hread : read i input with
    | error e =>
      rw [hread] at h
      cases h
    | ok r =>
      obtain ⟨x, next⟩ := r
      rw [hread] at h
      obtain ⟨xs, rfl, hxs⟩ := ih h
      refine ⟨x :: xs, by simp, List.forall_mem_cons.2 ⟨⟨i, input, next, hread⟩, hxs⟩⟩

/-- A map that changes nothing that can be read changes no list of parts that were read. -/
theorem map_of_readMany {α : Type} {read : Nat → Input → Except WireError (α × Input)}
    {f : α → α} {n : Nat} {xs : List α} {input last : Input}
    (hread : ∀ i start x stop, read i start = .ok (x, stop) → f x = x)
    (h : readMany read n 0 [] input = .ok (xs, last)) : xs.map f = xs := by
  obtain ⟨xs, rfl, hxs⟩ := readMany_eq_ok h
  refine (List.map_congr_left fun x hx => ?_).trans (List.map_id _)
  obtain ⟨i, start, stop, hx⟩ := hxs x hx
  exact hread i start x stop hx

theorem readFields_eq_ok {read : FieldLayout → Input → Except WireError (Value × Input)}
    {fields : List FieldLayout} {vs : List (String × Value)} {input last : Input}
    (h : readFields read fields input = .ok (vs, last)) :
    List.Forall₂ (fun f v => v.1 = f.name ∧ ∃ start stop, read f start = .ok (v.2, stop))
      fields vs := by
  induction fields generalizing vs input with
  | nil =>
    cases h
    exact .nil
  | cons f fields ih =>
    rw [readFields] at h
    obtain ⟨⟨v, next⟩, hv, h⟩ := bind_eq_ok.1 h
    obtain ⟨⟨vs', last'⟩, hvs, h⟩ := bind_eq_ok.1 h
    cases h
    exact .cons ⟨rfl, input, next, hv⟩ (ih hvs)

theorem normal_of_readScalar {scalar : Scalar} {path : Path} {input next : Input} {v : Value}
    (hv : readScalar scalar path input = .ok (v, next)) : scalar.normal v = v ∧ v ≠ .null := by
  obtain ⟨⟨bs, after⟩, _, hv⟩ := bind_eq_ok.1 hv
  cases hv
  refine ⟨Scalar.normal_ofBits scalar _, ?_⟩
  cases scalar <;> simp [Scalar.ofBits]

/-- A value that was read is its own normal form, when that is so for the structs in it. -/
theorem normal_of_read {d : DocumentLayout} {widths : MinWidths} {onStruct : ReadStruct}
    (h : ∀ type path input v next, onStruct type path input = .ok (v, next) →
      v.normal d (.embedded type) = v)
    {l : Layout} {path : Path} {input next : Input} {v : Value}
    (hv : read widths onStruct l path input = .ok (v, next)) : v.normal d l = v := by
  induction l generalizing path input next v with
  | fixed scalar =>
    rw [Value.normal]
    exact (normal_of_readScalar hv).1
  | nullable scalar =>
    rw [read] at hv
    obtain ⟨⟨flag, after⟩, _, hv⟩ := bind_eq_ok.1 hv
    by_cases hflag : Bytes.ofLittle flag = 0
    · simp only [hflag, if_true, pure_eq_ok, Prod.mk.injEq] at hv
      rw [← hv.1]
      rfl
    · simp only [hflag, if_false] at hv
      obtain ⟨hnormal, hne⟩ := normal_of_readScalar hv
      rw [Value.normal_present hne, hnormal]
  | string | fixedBytes | dynamicBytes => cases v <;> rfl
  | fixedArray len elem ih =>
    rw [read] at hv
    obtain ⟨⟨xs, after⟩, hxs, hv⟩ := bind_eq_ok.1 hv
    cases hv
    rw [Value.normal, Value.normalItems_eq, map_of_readMany (fun _ _ _ _ hx => ih hx) hxs]
  | dynamicArray elem ih =>
    rw [read] at hv
    obtain ⟨⟨n, start⟩, _, hv⟩ := bind_eq_ok.1 hv
    obtain ⟨⟨xs, after⟩, hxs, hv⟩ := bind_eq_ok.1 hv
    cases hv
    rw [Value.normal, Value.normalItems_eq, map_of_readMany (fun _ _ _ _ hx => ih hx) hxs]
  | map key value ihk ihv =>
    rw [read] at hv
    obtain ⟨⟨n, start⟩, _, hv⟩ := bind_eq_ok.1 hv
    obtain ⟨⟨es, after⟩, hes, hv⟩ := bind_eq_ok.1 hv
    cases hv
    rw [Value.normal, Value.normalEntries_eq]
    congr 1
    refine map_of_readMany (fun i start e stop he => ?_) hes
    obtain ⟨⟨k, middle⟩, hk, he⟩ := bind_eq_ok.1 he
    obtain ⟨⟨v, stop'⟩, hv, he⟩ := bind_eq_ok.1 he
    cases he
    rw [ihk hk, ihv hv]
  | embedded type => exact h type path input v next hv

theorem filterMap_of_forall₂ {α β : Type} {f : α → Option β} {xs : List α} {ys : List β}
    (h : List.Forall₂ (fun x y => f x = some y) xs ys) : xs.filterMap f = ys := by
  induction h with
  | nil => rfl
  | cons h _ ih => rw [List.filterMap_cons_some h, ih]

theorem normal_of_readStruct {d : DocumentLayout} (hd : d.FieldsDiffer) {widths : MinWidths}
    {room : Nat} {type : String} {path : Path} {input next : Input} {v : Value}
    (hv : readStruct d widths room type path input = .ok (v, next)) :
    v.normal d (.embedded type) = v := by
  induction room generalizing type path input next v with
  | zero => cases hv
  | succ room ih =>
    rw [readStruct] at hv
    cases hs : d.get? type with
    | none =>
      rw [hs] at hv
      cases hv
    | some s =>
      rw [hs] at hv
      obtain ⟨⟨vs, after⟩, hvs, hv⟩ := bind_eq_ok.1 hv
      cases hv
      have hread := readFields_eq_ok hvs
      have hnames : s.fields.map FieldLayout.name = vs.map Prod.fst := by
        rw [← List.forall₂_eq_eq_eq, List.forall₂_map_left_iff, List.forall₂_map_right_iff]
        exact hread.imp fun f v h => h.1.symm
      have hdiffer : (vs.map Prod.fst).Nodup := hnames ▸ hd.get hs
      obtain ⟨hlen, hzip⟩ := List.forall₂_iff_zip.1 hread
      rw [Value.normal_struct hs]
      congr 1
      refine filterMap_of_forall₂ (List.forall₂_iff_zip.2 ⟨hlen, fun {f v} hmem => ?_⟩)
      obtain ⟨hname, start, stop, hv⟩ := hzip hmem
      rw [← hname, lookup_of_nodup hdiffer (List.of_mem_zip hmem).2, Option.map_some,
        normal_of_read (fun _ _ _ _ _ => ih) hv]

end Wire

/-! ## The codec -/

theorem Document.fieldsDiffer_layoutOf (doc : Document) {shapes : List StructShape}
    (h : ∀ s ∈ shapes, s.Sound) : (doc.layoutOf shapes).FieldsDiffer := by
  refine List.forall_mem_map.2 fun s hs => ?_
  have hdiffer := (h s hs).differ
  rwa [StructShape.layout, List.map_map]

namespace Codec

open Wire

theorem unmarshal_ofLayout (d : DocumentLayout) (type : String) (buf : List UInt8)
    (offset : Nat) : (ofLayout d).unmarshal type buf offset = (do
      let (v, input) ←
        readStruct d d.minWidths maxDepth type (.start type) (.ofBuffer buf offset)
      return (v, input.offset)) := rfl

section Encoded

variable {d : DocumentLayout} {type : String} {v : Value} {bs : List UInt8}
  (h : (ofLayout d).encode type v = .ok bs) (hexact : Slot.FloatsExact d (.embedded type, v))
include h hexact

/-- The reader finds the bytes of an encoded value wherever they stand. -/
theorem reads_of_encode (before after : List UInt8) :
    Reads (readStruct d d.minWidths maxDepth type (.start type)
        (.ofBuffer (before ++ bs ++ after) before.length))
      (v.normal d (.embedded type))
      ((Input.ofBuffer (before ++ bs ++ after) before.length).advance bs.length)
      (Slot.Crowded d (.embedded type, v)) := by
  obtain ⟨hfits, rfl⟩ := encode_eq_ok_iff.1 h
  exact hfits.read hexact (.start type) _ (Input.holds_ofBuffer before _ after)

theorem unmarshal_of_encode_of_not_crowded (hroom : ¬ Slot.Crowded d (.embedded type, v))
    (before after : List UInt8) :
    (ofLayout d).unmarshal type (before ++ bs ++ after) before.length =
      .ok (v.normal d (.embedded type), before.length + bs.length) := by
  rcases reads_of_encode h hexact before after with ⟨_, hread⟩ | ⟨hcrowded, _⟩
  · rw [unmarshal_ofLayout, hread]
    rfl
  · exact absurd hcrowded hroom

theorem unmarshal_of_encode_of_crowded (hcrowded : Slot.Crowded d (.embedded type, v))
    (before after : List UInt8) :
    ∃ path n, (ofLayout d).unmarshal type (before ++ bs ++ after) before.length =
      .error (.countLimit path n) := by
  rcases reads_of_encode h hexact before after with ⟨hroom, _⟩ | ⟨_, path, n, hread⟩
  · exact absurd hcrowded hroom
  · refine ⟨path, n, ?_⟩
    rw [unmarshal_ofLayout, hread]
    rfl

theorem decode_of_encode (hroom : ¬ Slot.Crowded d (.embedded type, v)) :
    (ofLayout d).decode type bs = .ok (v.normal d (.embedded type)) := by
  have hread := unmarshal_of_encode_of_not_crowded h hexact hroom [] []
  rw [List.nil_append, List.append_nil, List.length_nil, Nat.zero_add] at hread
  rw [decode, hread, ok_bind]
  exact if_pos rfl

end Encoded

theorem encode_normal {d : DocumentLayout} (hd : d.FieldsDiffer) {type : String} {v : Value}
    {bs : List UInt8} (h : (ofLayout d).encode type v = .ok bs) :
    (ofLayout d).encode type (v.normal d (.embedded type)) = .ok bs := by
  obtain ⟨hfits, rfl⟩ := encode_eq_ok_iff.1 h
  obtain ⟨hnormal, hform⟩ := hfits.normal hd
  exact encode_eq_ok_iff.2 ⟨hnormal, hform.symm⟩

theorem normal_of_unmarshal {d : DocumentLayout} (hd : d.FieldsDiffer) {type : String}
    {buf : List UInt8} {offset stop : Nat} {v : Value}
    (h : (ofLayout d).unmarshal type buf offset = .ok (v, stop)) :
    v.normal d (.embedded type) = v := by
  obtain ⟨⟨w, next⟩, hread, h⟩ := bind_eq_ok.1 h
  cases h
  exact normal_of_readStruct hd hread

/-- Reading back what was encoded gives the normal form of the value, wherever the bytes stand
and whatever stands around them, unless the value is crowded; then the count is refused. The
normal form has the same bytes, and is the value itself for every value that was read. -/
theorem unmarshal_of_encode (doc : Document) (hdoc : doc.check = .ok ()) :
    ∃ c, Codec.ofDocument doc = .ok c ∧
      (∀ type v bs, c.encode type v = .ok bs →
        Slot.FloatsExact c.layouts (.embedded type, v) →
        let norm := v.normal c.layouts (.embedded type)
        (∀ before after,
          (¬ Slot.Crowded c.layouts (.embedded type, v) →
            c.unmarshal type (before ++ bs ++ after) before.length =
              .ok (norm, before.length + bs.length)) ∧
          (Slot.Crowded c.layouts (.embedded type, v) → ∃ path n,
            c.unmarshal type (before ++ bs ++ after) before.length =
              .error (.countLimit path n))) ∧
        (¬ Slot.Crowded c.layouts (.embedded type, v) → c.decode type bs = .ok norm) ∧
        c.encode type norm = .ok bs) ∧
      ∀ type buf offset v stop, c.unmarshal type buf offset = .ok (v, stop) →
        v.normal c.layouts (.embedded type) = v := by
  obtain ⟨shapes, hsound, hlayout, _⟩ := Document.shaped_of_check hdoc
  have hd := doc.fieldsDiffer_layoutOf hsound
  refine ⟨ofLayout (doc.layoutOf shapes), by rw [ofDocument, hlayout], ?_, ?_⟩
  · intro type v bs hbs hexact
    refine ⟨fun before after => ⟨fun hroom => ?_, fun hcrowded => ?_⟩, fun hroom => ?_, ?_⟩
    · exact unmarshal_of_encode_of_not_crowded hbs hexact hroom before after
    · exact unmarshal_of_encode_of_crowded hbs hexact hcrowded before after
    · exact decode_of_encode hbs hexact hroom
    · exact encode_normal hd hbs
  · intro type buf offset v stop hread
    exact normal_of_unmarshal hd hread

/-- A document of one struct, with a short number and a narrow float. -/
def sampleDocument : Document :=
  ⟨"p", [⟨"S", none, [⟨"A", .ofKind .uint16⟩, ⟨"F", .ofKind .float32⟩]⟩]⟩

def sampleLayout : DocumentLayout :=
  ⟨1, "p", .little, [⟨"S", [⟨"A", .fixed .u16⟩, ⟨"F", .fixed .f32⟩]⟩]⟩

/-- A value of the sample struct, its fields in another order and its number signed. -/
def sampleValue : Value := .struct [("F", .float ⟨0x3ff8000000000000⟩), ("A", .int 258)]

/-- The slots of the sample value: the struct and its two scalars. -/
theorem held_of_sample {b : Slot} (h : Slot.Holds sampleLayout (.embedded "S", sampleValue) b) :
    b = (.fixed .u16, .int 258) ∨ b = (.fixed .f32, .float ⟨0x3ff8000000000000⟩) := by
  cases h with
  | field hs hf hx =>
    cases hs
    rcases List.mem_pair.1 hf with rfl | rfl <;> cases hx
    · exact Or.inl rfl
    · exact Or.inr rfl

/-- The sample value comes back in order: its number is unsigned, and the float as it was. -/
theorem the_sample_comes_back :
    sampleDocument.check = .ok () ∧ ∃ c, Codec.ofDocument sampleDocument = .ok c ∧
      c.encode "S" sampleValue = .ok [2, 1, 0, 0, 192, 63] ∧
      c.unmarshal "S" ([9] ++ [2, 1, 0, 0, 192, 63] ++ [7]) 1 =
        .ok (.struct [("A", .uint 258), ("F", .float ⟨0x3ff8000000000000⟩)], 7) := by
  have hdoc : sampleDocument.check = .ok () := by rfl
  obtain ⟨c, hc, hback, _⟩ := unmarshal_of_encode sampleDocument hdoc
  obtain rfl : c = ofLayout sampleLayout := Except.ok.inj (hc.symm.trans (by rfl))
  have hencode : (ofLayout sampleLayout).encode "S" sampleValue = .ok [2, 1, 0, 0, 192, 63] := by
    rfl
  have hexact : Slot.FloatsExact sampleLayout (.embedded "S", sampleValue) := by
    refine Slot.everyPart_iff.2 ⟨trivial, fun b hb => ?_⟩
    rcases held_of_sample hb with rfl | rfl
    · exact Slot.everyPart_iff.2 ⟨trivial, fun b hb => absurd hb (Slot.not_holds_of_plain trivial)⟩
    · refine Slot.everyPart_iff.2 ⟨⟨_, rfl, by decide +kernel⟩, fun b hb => ?_⟩
      exact absurd hb (Slot.not_holds_of_plain trivial)
  have hroom : ¬ Slot.Crowded sampleLayout (.embedded "S", sampleValue) := by
    rw [Slot.Crowded, Slot.somePart_iff]
    rintro (⟨⟨⟩⟩ | ⟨b, hb, hcrowded⟩)
    rcases held_of_sample hb with rfl | rfl
    · exact absurd hcrowded (Slot.not_crowded_of_plain trivial)
    · exact absurd hcrowded (Slot.not_crowded_of_plain trivial)
  exact ⟨hdoc, _, hc, hencode, ((hback "S" sampleValue _ hencode hexact).1 [9] [7]).1 hroom⟩

end Codec

end WireSchema
