-- The protobuf form of layouts determines them. A message falls apart into its fields in one way
-- only, since the last group of a number is not marked and a block tells its length. The fields of
-- a tag then tell the part that they stand for: a field that was left out, its default.
import WireSchema.Layout.Protobuf

namespace WireSchema

theorem Text.eq_of_bytes_eq {s t : String} (h : Text.bytes s = Text.bytes t) : s = t := by
  have hdata : s.toUTF8.data = t.toUTF8.data := Array.toList_inj.1 h
  exact String.toByteArray_inj.1 (ByteArray.ext hdata)

namespace Protobuf

/-! ## Messages as fields -/

theorem ofNat_eq_ofNat {a b : Nat} (ha : a < 256) (hb : b < 256)
    (h : UInt8.ofNat a = UInt8.ofNat b) : a = b := by
  have htoNat := congrArg UInt8.toNat h
  rwa [UInt8.toNat_ofNat_of_lt' ha, UInt8.toNat_ofNat_of_lt' hb] at htoNat

/-- Where a number ends can be seen from the number itself. -/
theorem varint_append_inj {n m : Nat} {rest more : List UInt8}
    (h : varint n ++ rest = varint m ++ more) : n = m ∧ rest = more := by
  induction n using varint.induct generalizing m with
  | case1 n hn =>
    rw [varint, if_pos hn, varint] at h
    split at h
    · rename_i hm
      obtain ⟨hbyte, hrest⟩ := List.cons.inj h
      exact ⟨ofNat_eq_ofNat (by omega) (by omega) hbyte, hrest⟩
    · have := ofNat_eq_ofNat (by omega) (by omega) (List.cons.inj h).1
      omega
  | case2 n hn ih =>
    rw [varint, if_neg hn, varint.eq_def m] at h
    split at h
    · have := ofNat_eq_ofNat (by omega) (by omega) (List.cons.inj h).1
      omega
    · obtain ⟨hbyte, htail⟩ := List.cons.inj h
      have hlow := ofNat_eq_ofNat (by omega) (by omega) hbyte
      obtain ⟨hhigh, hrest⟩ := ih htail
      exact ⟨by omega, hrest⟩

/-- What a field holds. -/
inductive Payload where
  | number (n : Nat)
  | block (bytes : List UInt8)

/-- A field that is written. -/
structure Entry where
  tag : Nat
  payload : Payload

/-- The bytes of a field. -/
def Entry.bytes : Entry → List UInt8
  | ⟨tag, .number n⟩ => varint (8 * tag) ++ varint n
  | ⟨tag, .block bytes⟩ => Protobuf.block tag bytes

/-- The bytes of a message with the given fields. -/
def written (entries : List Entry) : List UInt8 := entries.flatMap Entry.bytes

theorem Entry.bytes_append_inj {e f : Entry} {rest more : List UInt8}
    (h : e.bytes ++ rest = f.bytes ++ more) : e = f ∧ rest = more := by
  obtain ⟨tag, payload⟩ := e
  obtain ⟨tag', payload'⟩ := f
  cases payload with
  | number n =>
    cases payload' with
    | number m =>
      simp only [bytes, List.append_assoc] at h
      obtain ⟨htag, h⟩ := varint_append_inj h
      obtain ⟨rfl, hrest⟩ := varint_append_inj h
      obtain rfl : tag = tag' := by omega
      exact ⟨rfl, hrest⟩
    | block bs =>
      simp only [bytes, block, List.append_assoc] at h
      have := (varint_append_inj h).1
      omega
  | block as =>
    cases payload' with
    | number m =>
      simp only [bytes, block, List.append_assoc] at h
      have := (varint_append_inj h).1
      omega
    | block bs =>
      simp only [bytes, block, List.append_assoc] at h
      obtain ⟨htag, h⟩ := varint_append_inj h
      obtain ⟨hlength, h⟩ := varint_append_inj h
      obtain ⟨rfl, hrest⟩ := List.append_inj h hlength
      obtain rfl : tag = tag' := by omega
      exact ⟨rfl, hrest⟩

theorem varint_ne_nil (n : Nat) : varint n ≠ [] := by
  unfold varint
  split <;> exact List.cons_ne_nil _ _

theorem Entry.bytes_ne_nil (e : Entry) : e.bytes ≠ [] := by
  obtain ⟨tag, payload⟩ := e
  cases payload <;> simp [bytes, block, varint_ne_nil]

/-- A message has one list of fields. -/
theorem written_inj {es fs : List Entry} (h : written es = written fs) : es = fs := by
  unfold written at h
  induction es generalizing fs with
  | nil =>
    cases fs with
    | nil => rfl
    | cons f fs =>
      rw [List.flatMap_nil, List.flatMap_cons, List.nil_eq, List.append_eq_nil_iff] at h
      exact absurd h.1 f.bytes_ne_nil
  | cons e es ih =>
    cases fs with
    | nil =>
      rw [List.flatMap_nil, List.flatMap_cons, List.append_eq_nil_iff] at h
      exact absurd h.1 e.bytes_ne_nil
    | cons f fs =>
      rw [List.flatMap_cons, List.flatMap_cons] at h
      obtain ⟨rfl, hrest⟩ := Entry.bytes_append_inj h
      rw [ih hrest]

theorem written_append (es fs : List Entry) : written (es ++ fs) = written es ++ written fs :=
  List.flatMap_append

/-! ## Fields of a tag -/

/-- The fields of a tag, one for each payload. -/
def field (tag : Nat) (payloads : List Payload) : List Entry := payloads.map (⟨tag, ·⟩)

/-- What the fields of a tag hold, in their order. -/
def payloads (tag : Nat) (entries : List Entry) : List Payload :=
  entries.filterMap fun e => if e.tag = tag then some e.payload else none

@[simp]
theorem payloads_append (tag : Nat) (es fs : List Entry) :
    payloads tag (es ++ fs) = payloads tag es ++ payloads tag fs :=
  List.filterMap_append

@[simp]
theorem payloads_field (tag tag' : Nat) (ps : List Payload) :
    payloads tag (field tag' ps) = if tag' = tag then ps else [] := by
  unfold payloads field
  rw [List.filterMap_map]
  by_cases h : tag' = tag
  · have hall : (fun e => if e.tag = tag then some e.payload else none) ∘ Entry.mk tag' = some :=
      funext fun p => if_pos h
    rw [if_pos h, hall, List.filterMap_some]
  · rw [if_neg h]
    exact List.filterMap_eq_nil_iff.2 fun p _ => if_neg h

/-- What the field of a number holds, when it is written. -/
def ofNumber (n : Nat) : List Payload := if n = 0 then [] else [.number n]

/-- What the field of a text holds, when it is written. -/
def ofText (s : String) : List Payload := if s.isEmpty then [] else [.block (Text.bytes s)]

/-- A number is told by its field, and zero by the lack of one. -/
theorem ofNumber_inj {n m : Nat} (h : ofNumber n = ofNumber m) : n = m := by
  unfold ofNumber at h
  split at h <;> split at h <;> simp_all

/-- A text is told by its field, and the empty one by the lack of one. -/
theorem ofText_inj {s t : String} (h : ofText s = ofText t) : s = t := by
  unfold ofText at h
  split at h <;> split at h
  · simp_all [String.isEmpty_iff]
  · cases h
  · cases h
  · injection h with hblock _
    injection hblock with hbytes
    exact Text.eq_of_bytes_eq hbytes

/-- Parts are told by the fields that hold their messages. -/
theorem blocks_inj {α : Type} {message : α → List UInt8} {xs ys : List α}
    (h : xs.map (fun x => Payload.block (message x)) = ys.map fun y => Payload.block (message y))
    (hinj : ∀ x y, message x = message y → x = y) : xs = ys :=
  (List.map_inj_right fun x y hxy => hinj x y (Payload.block.inj hxy)).1 h

theorem number_eq (tag n : Nat) : number tag n = written (field tag (ofNumber n)) := by
  unfold number ofNumber
  split
  · rfl
  · exact (List.flatMap_singleton ..).symm

theorem text_eq (tag : Nat) (s : String) : text tag s = written (field tag (ofText s)) := by
  unfold text ofText
  split
  · rfl
  · exact (List.flatMap_singleton ..).symm

theorem block_eq (tag : Nat) (bytes : List UInt8) :
    block tag bytes = written (field tag [.block bytes]) :=
  (List.flatMap_singleton ..).symm

theorem blocks_eq {α : Type} (tag : Nat) (message : α → List UInt8) (xs : List α) :
    (xs.flatMap fun x => block tag (message x)) =
      written (field tag (xs.map fun x => .block (message x))) := by
  rw [written, field, List.map_map, List.flatMap_map]
  rfl

end Protobuf

open Protobuf

/-! ## Layouts -/

theorem Scalar.index_inj {s t : Scalar} (h : s.index = t.index) : s = t := by
  cases s <;> cases t <;> first | rfl | cases h

theorem ByteOrder.index_inj {o o' : ByteOrder} (h : o.index = o'.index) : o = o' := by
  cases o <;> cases o' <;> first | rfl | cases h

namespace Layout

/-- The tag of the one field of a layout. -/
def tag : Layout → Nat
  | fixed _ => 1
  | nullable _ => 2
  | string => 3
  | fixedBytes _ => 4
  | dynamicBytes => 5
  | fixedArray _ _ => 6
  | dynamicArray _ => 7
  | map _ _ => 8
  | embedded _ => 9

/-- The fields inside the one field of a layout. -/
def entries : Layout → List Entry
  | fixed scalar | nullable scalar =>
    field 1 (ofNumber scalar.index) ++ field 2 (ofNumber scalar.width)
  | string | dynamicBytes => []
  | fixedBytes len => field 1 (ofNumber len.toNat)
  | fixedArray len elem => field 1 (ofNumber len.toNat) ++ field 2 [.block elem.message]
  | dynamicArray elem => field 2 [.block elem.message]
  | map key value => field 1 [.block key.message] ++ field 2 [.block value.message]
  | embedded type => field 1 (ofText type)

theorem message_eq (l : Layout) :
    l.message = written (field l.tag [.block (written l.entries)]) := by
  rw [← block_eq]
  cases l with
  | fixed | nullable =>
    rw [message, Scalar.message, number_eq, number_eq, ← written_append, tag, entries]
  | string | dynamicBytes => rfl
  | fixedBytes => rw [message, number_eq, tag, entries]
  | fixedArray => rw [message, number_eq, block_eq 2, ← written_append, tag, entries]
  | dynamicArray => rw [message, block_eq 2, tag, entries]
  | map => rw [message, block_eq 1, block_eq 2, ← written_append, tag, entries]
  | embedded => rw [message, text_eq, tag, entries]

theorem parts_of_message_eq {l l' : Layout} (h : l.message = l'.message) :
    l.tag = l'.tag ∧ ∀ tag, payloads tag l.entries = payloads tag l'.entries := by
  rw [message_eq, message_eq] at h
  obtain ⟨htag, hbytes⟩ : l.tag = l'.tag ∧ written l.entries = written l'.entries := by
    simpa [field] using written_inj h
  exact ⟨htag, fun tag => by rw [written_inj hbytes]⟩

theorem eq_of_message_eq {l l' : Layout} (h : l.message = l'.message) : l = l' := by
  -- The tags tell the strategies apart, so each is compared with itself only.
  induction l generalizing l' <;> obtain ⟨htag, hparts⟩ := parts_of_message_eq h
  case fixed scalar =>
    cases l' with
    | fixed scalar' =>
      have hindex : ofNumber scalar.index = ofNumber scalar'.index := by
        simpa [entries] using hparts 1
      rw [Scalar.index_inj (ofNumber_inj hindex)]
    | _ => simp [tag] at htag
  case nullable scalar =>
    cases l' with
    | nullable scalar' =>
      have hindex : ofNumber scalar.index = ofNumber scalar'.index := by
        simpa [entries] using hparts 1
      rw [Scalar.index_inj (ofNumber_inj hindex)]
    | _ => simp [tag] at htag
  case string =>
    cases l' with
    | string => rfl
    | _ => simp [tag] at htag
  case fixedBytes len =>
    cases l' with
    | fixedBytes len' =>
      have hlen : ofNumber len.toNat = ofNumber len'.toNat := by simpa [entries] using hparts 1
      rw [UInt32.toNat_inj.1 (ofNumber_inj hlen)]
    | _ => simp [tag] at htag
  case dynamicBytes =>
    cases l' with
    | dynamicBytes => rfl
    | _ => simp [tag] at htag
  case fixedArray len elem ih =>
    cases l' with
    | fixedArray len' elem' =>
      have hlen : ofNumber len.toNat = ofNumber len'.toNat := by simpa [entries] using hparts 1
      have helem : elem.message = elem'.message := by simpa [entries] using hparts 2
      rw [UInt32.toNat_inj.1 (ofNumber_inj hlen), ih helem]
    | _ => simp [tag] at htag
  case dynamicArray elem ih =>
    cases l' with
    | dynamicArray elem' =>
      have helem : elem.message = elem'.message := by simpa [entries] using hparts 2
      rw [ih helem]
    | _ => simp [tag] at htag
  case map key value ihk ihv =>
    cases l' with
    | map key' value' =>
      have hkey : key.message = key'.message := by simpa [entries] using hparts 1
      have hvalue : value.message = value'.message := by simpa [entries] using hparts 2
      rw [ihk hkey, ihv hvalue]
    | _ => simp [tag] at htag
  case embedded type =>
    cases l' with
    | embedded type' =>
      have htype : ofText type = ofText type' := by simpa [entries] using hparts 1
      rw [ofText_inj htype]
    | _ => simp [tag] at htag

end Layout

/-! ## Documents -/

theorem FieldLayout.eq_of_message_eq {f f' : FieldLayout} (h : f.message = f'.message) :
    f = f' := by
  simp only [message, text_eq, block_eq, ← written_append] at h
  have hentries := written_inj h
  have hname : ofText f.name = ofText f'.name := by
    simpa using congrArg (payloads 1) hentries
  have hlayout : f.layout.message = f'.layout.message := by
    simpa using congrArg (payloads 2) hentries
  obtain ⟨name, layout⟩ := f
  obtain ⟨name', layout'⟩ := f'
  rw [FieldLayout.mk.injEq]
  exact ⟨ofText_inj hname, Layout.eq_of_message_eq hlayout⟩

theorem StructLayout.eq_of_message_eq {s s' : StructLayout} (h : s.message = s'.message) :
    s = s' := by
  simp only [message, text_eq, blocks_eq, ← written_append] at h
  have hentries := written_inj h
  have hname : ofText s.name = ofText s'.name := by
    simpa using congrArg (payloads 1) hentries
  have hfields : s.fields.map (fun f => Payload.block f.message) =
      s'.fields.map fun f => Payload.block f.message := by
    simpa using congrArg (payloads 2) hentries
  obtain ⟨name, fields⟩ := s
  obtain ⟨name', fields'⟩ := s'
  rw [StructLayout.mk.injEq]
  exact ⟨ofText_inj hname, blocks_inj hfields fun _ _ => FieldLayout.eq_of_message_eq⟩

/-- The protobuf form of a document's layouts determines them: the version, the package, the byte
order, and every struct, field and layout in its place. -/
theorem DocumentLayout.message_determines_layouts (d d' : DocumentLayout) :
    d.message = d'.message ↔ d = d' := by
  refine ⟨fun h => ?_, fun h => by rw [h]⟩
  simp only [message, number_eq, text_eq, blocks_eq, ← written_append] at h
  have hentries := written_inj h
  have hversion : ofNumber d.version.toNat = ofNumber d'.version.toNat := by
    simpa using congrArg (payloads 1) hentries
  have hpackage : ofText d.package = ofText d'.package := by
    simpa using congrArg (payloads 2) hentries
  have horder : ofNumber d.byteOrder.index = ofNumber d'.byteOrder.index := by
    simpa using congrArg (payloads 3) hentries
  have hstructs : d.structs.map (fun s => Payload.block s.message) =
      d'.structs.map fun s => Payload.block s.message := by
    simpa using congrArg (payloads 4) hentries
  obtain ⟨version, package, byteOrder, structs⟩ := d
  obtain ⟨version', package', byteOrder', structs'⟩ := d'
  rw [DocumentLayout.mk.injEq]
  exact ⟨UInt32.toNat_inj.1 (ofNumber_inj hversion), ofText_inj hpackage,
    ByteOrder.index_inj (ofNumber_inj horder),
    blocks_inj hstructs fun _ _ => StructLayout.eq_of_message_eq⟩

end WireSchema
