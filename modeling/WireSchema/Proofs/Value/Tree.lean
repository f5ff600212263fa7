-- Values as trees and back. The tree of a value forgets the layout: bytes become text, an absent
-- scalar becomes nothing, and a map is an object or a list of pairs by what its keys happen to be.
-- Reading follows the layout, and meets the tree again for every value that came off the wire.
import WireSchema.Proofs.Wire.Delimited

namespace WireSchema

open Outcome Wire

/-! ## Digits -/

namespace Hex

theorem digit?_digit {n : Nat} (h : n < 16) : digit? (digit n) = some n := by
  decide +revert

theorem ofDigits?_digits (bs : List UInt8) :
    ofDigits? (bs.flatMap fun b => [digit (b.toNat / 16), digit (b.toNat % 16)]) = some bs := by
  induction bs with
  | nil => rfl
  | cons b bs ih =>
    have hb : b.toNat < 256 := b.toNat_lt
    have hhigh : digit? (digit (b.toNat / 16)) = some (b.toNat / 16) := digit?_digit (by omega)
    have hlow : digit? (digit (b.toNat % 16)) = some (b.toNat % 16) := digit?_digit (by omega)
    have hjoin : 16 * (b.toNat / 16) + b.toNat % 16 = b.toNat := Nat.div_add_mod ..
    rw [List.flatMap_cons, List.cons_append, List.cons_append, List.nil_append, ofDigits?, hhigh,
      hlow, ih]
    change some (UInt8.ofNat (16 * (b.toNat / 16) + b.toNat % 16) :: bs) = _
    rw [hjoin, UInt8.ofNat_toNat]

/-- Digits are never taken for a mark, since its second character is no digit. -/
theorem decodeMarked?_encode (bs : List UInt8) : decodeMarked? (encode bs) = some bs := by
  have hdigits := ofDigits?_digits bs
  unfold decodeMarked? encode
  rw [String.toList_ofList]
  split
  · rename_i digits hmark
    rw [hmark] at hdigits
    simp [ofDigits?, digit?] at hdigits
  · exact hdigits

end Hex

/-! ## Trees that are kept -/

namespace Json

mutual

/-- The tree with nothing in the place of infinities and NaNs. -/
def finite : Json → Json
  | .float x => if x.isFinite then .float x else .null
  | .arr items => .arr (finiteItems items)
  | .obj entries => .obj (finiteEntries entries)
  | j => j

/-- The items with nothing in the place of infinities and NaNs. -/
def finiteItems : List Json → List Json
  | [] => []
  | x :: xs => x.finite :: finiteItems xs

/-- The entries with nothing in the place of infinities and NaNs. -/
def finiteEntries : List (String × Json) → List (String × Json)
  | [] => []
  | (k, x) :: xs => (k, x.finite) :: finiteEntries xs

end

/-- A tree that is kept in memory as it is: every float is finite, and no object repeats a
key. -/
structure Kept (j : Json) : Prop where
  finite : j.finite = j
  merged : j.merged = j

theorem Kept.arr {items : List Json} (h : ∀ j ∈ items, j.Kept) : (Json.arr items).Kept := by
  suffices hitems : finiteItems items = items ∧ mergedItems items = items from
    ⟨by rw [Json.finite, hitems.1], by rw [Json.merged, hitems.2]⟩
  induction items with
  | nil => exact ⟨rfl, rfl⟩
  | cons j items ih =>
    obtain ⟨hj, hrest⟩ := List.forall_mem_cons.1 h
    obtain ⟨hfinite, hmerged⟩ := ih hrest
    rw [finiteItems, mergedItems, hj.finite, hj.merged, hfinite, hmerged]
    exact ⟨rfl, rfl⟩

theorem put_of_new {entries : List (String × Json)} {key : String} {j : Json}
    (h : key ∉ entries.map Prod.fst) : put entries key j = entries ++ [(key, j)] := by
  unfold put
  rw [if_neg]
  intro hany
  obtain ⟨e, he, heq⟩ := List.any_eq_true.1 hany
  exact h (List.mem_map.2 ⟨e, he, beq_iff_eq.1 heq⟩)

theorem mergedEntries_of_nodup {seen entries : List (String × Json)}
    (hkeys : ((seen ++ entries).map Prod.fst).Nodup) (h : ∀ e ∈ entries, e.2.merged = e.2) :
    mergedEntries seen entries = seen ++ entries := by
  induction entries generalizing seen with
  | nil => rw [mergedEntries, List.append_nil]
  | cons e entries ih =>
    obtain ⟨he, hrest⟩ := List.forall_mem_cons.1 h
    have hnew : e.1 ∉ seen.map Prod.fst := by
      rw [List.map_append, List.map_cons, List.nodup_append] at hkeys
      exact fun hmem => hkeys.2.2 _ hmem _ (List.mem_cons_self ..) rfl
    rw [mergedEntries, he, put_of_new hnew, ih (by simpa using hkeys) hrest, List.append_assoc]
    rfl

theorem Kept.obj {entries : List (String × Json)} (hkeys : (entries.map Prod.fst).Nodup)
    (h : ∀ e ∈ entries, e.2.Kept) : (Json.obj entries).Kept := by
  have hfinite : finiteEntries entries = entries := by
    clear hkeys
    induction entries with
    | nil => rfl
    | cons e entries ih =>
      obtain ⟨he, hrest⟩ := List.forall_mem_cons.1 h
      rw [finiteEntries, he.finite, ih hrest]
  have hmerged : mergedEntries [] entries = entries :=
    mergedEntries_of_nodup hkeys fun e he => (h e he).merged
  exact ⟨by rw [Json.finite, hfinite], by rw [Json.merged, hmerged]⟩

section Weight

variable {τ : Type} {ts : List τ} {t : τ} {fuel : Nat}

/-- Items are lighter than their list. -/
theorem weight_lt_of_arr {tree : τ → Json} (h : (Json.arr (ts.map tree)).weight ≤ fuel)
    (ht : t ∈ ts) : (tree t).weight < fuel := by
  suffices hle : (tree t).weight ≤ weightItems (ts.map tree) by
    rw [Json.weight] at h
    omega
  clear h
  induction ts with
  | nil => cases ht
  | cons u ts ih =>
    rw [List.map_cons, weightItems]
    rcases List.mem_cons.1 ht with rfl | ht
    · omega
    · have := ih ht
      omega

/-- Values are lighter than their object. -/
theorem weight_lt_of_obj {entry : τ → String × Json}
    (h : (Json.obj (ts.map entry)).weight ≤ fuel) (ht : t ∈ ts) : (entry t).2.weight < fuel := by
  suffices hle : (entry t).2.weight ≤ weightEntries (ts.map entry) by
    rw [Json.weight] at h
    omega
  clear h
  induction ts with
  | nil => cases ht
  | cons u ts ih =>
    rw [List.map_cons, weightEntries]
    rcases List.mem_cons.1 ht with rfl | ht
    · omega
    · have := ih ht
      omega

end Weight

end Json

/-! ## Trees of values -/

namespace Value

/-- The tree of a value as it is kept in memory. A tree has no infinity and no NaN, and an object
has one entry for each key. -/
def tree (v : Value) : Json := v.toJson.finite.merged

theorem itemsToJson_eq (xs : List Value) : itemsToJson xs = xs.map toJson := by
  induction xs with
  | nil => rfl
  | cons x xs ih => rw [itemsToJson, ih, List.map_cons]

theorem pairsToJson_eq (es : List (Value × Value)) :
    pairsToJson es = es.map fun e => .arr [e.1.toJson, e.2.toJson] := by
  induction es with
  | nil => rfl
  | cons e es ih => rw [pairsToJson, ih, List.map_cons]

theorem fieldsToJson_eq (fields : List (String × Value)) :
    fieldsToJson fields = fields.map fun f => (f.1, f.2.toJson) := by
  induction fields with
  | nil => rfl
  | cons f fields ih => rw [fieldsToJson, ih, List.map_cons]

theorem valuesToJson_eq (es : List (Value × Value)) :
    valuesToJson es = es.map fun e => e.2.toJson := by
  induction es with
  | nil => rfl
  | cons e es ih => rw [valuesToJson, ih, List.map_cons]

theorem mapM_text? (es : List (Value × Value)) : es.mapM (fun e => e.1.text?) =
    if es.all (·.1.text?.isSome) then some (es.map fun e => e.1.text?.getD "") else none := by
  induction es with
  | nil => rfl
  | cons e es ih =>
    rw [List.mapM_cons, ih, List.all_cons, List.map_cons]
    cases htext : e.1.text? with
    | none => rfl
    | some s =>
      by_cases hall : es.all (·.1.text?.isSome)
      · simp [hall]
      · simp [hall]

theorem filterMap_text? {es : List (Value × Value)} (h : es.all (·.1.text?.isSome)) :
    es.filterMap (·.1.text?) = es.map fun e => e.1.text?.getD "" := by
  rw [List.filterMap_eq_map_iff_forall_eq_some]
  intro e he
  obtain ⟨s, hs⟩ := Option.isSome_iff_exists.1 (List.all_eq_true.1 h e he)
  rw [hs, Option.getD_some]

/-- A map is an object when all its keys are strings, and otherwise a list of pairs. -/
theorem toJson_map (es : List (Value × Value)) : (map es).toJson =
    if es.all (·.1.text?.isSome) then .obj (es.map fun e => (e.1.text?.getD "", e.2.toJson))
    else .arr (es.map fun e => .arr [e.1.toJson, e.2.toJson]) := by
  rw [toJson, mapM_text?]
  by_cases h : es.all (·.1.text?.isSome)
  · simp only [h, if_true, valuesToJson_eq, List.zip_map']
  · simp only [h, Bool.false_eq_true, if_false, pairsToJson_eq]

theorem lookup_fieldsToJson (fields : List (String × Value)) (name : String) :
    (fieldsToJson fields).lookup name = (fields.lookup name).map toJson := by
  induction fields with
  | nil => rfl
  | cons f fields ih =>
    rw [fieldsToJson, List.lookup_cons, List.lookup_cons, ih]
    cases name == f.1 <;> rfl

/-! ## Reading trees -/

/-- What bits of a scalar stand for is read from its tree. -/
theorem scalarOfJson_ofBits (scalar : Scalar) (path : Path) (bits : Nat) :
    scalarOfJson scalar path (scalar.ofBits bits).toJson = .ok (scalar.ofBits bits) := by
  cases scalar with
  | bool | f32 | f64 => rfl
  | i8 | i16 | i32 | i64 =>
    simp only [Scalar.ofBits, toJson, scalarOfJson]
    rw [if_pos (by exact_mod_cast Int64.toInt_lt _), Int64.ofInt_toInt]
  | u8 | u16 | u32 | u64 =>
    simp only [Scalar.ofBits, toJson, scalarOfJson]
    rw [if_pos (by omega), Int.toNat_natCast, UInt64.ofNat_toNat]

theorem toJson_ofBits_ne_null (scalar : Scalar) (bits : Nat) :
    (scalar.ofBits bits).toJson ≠ .null := by
  cases scalar <;> simp [Scalar.ofBits, toJson]

theorem text?_ofBits (scalar : Scalar) (bits : Nat) : (scalar.ofBits bits).text? = none := by
  cases scalar <;> rfl

/-- Only strings are read as text. -/
theorem text?_of_yields {d : DocumentLayout} {room : Nat} {l : Layout} {bs : List UInt8}
    {v : Value} {s : String} (h : Yields d room l bs v) (hv : v.text? = some s) :
    l = .string ∧ v = .string s := by
  cases h with
  | fixed | present =>
    rw [text?_ofBits] at hv
    cases hv
  | string =>
    cases hv
    exact ⟨rfl, rfl⟩
  | _ => cases hv

/-- Numbered trees are read one after the other, each as its own value. -/
theorem mapM_zipIdx {α : Type} {tree : α → Json} {read : Json × Nat → Except WireError α}
    {xs : List α} (h : ∀ x ∈ xs, ∀ i, read (tree x, i) = .ok x) (n : Nat) :
    ((xs.map tree).zipIdx n).mapM read = .ok xs := by
  induction xs generalizing n with
  | nil => rfl
  | cons x xs ih =>
    obtain ⟨hx, hrest⟩ := List.forall_mem_cons.1 h
    rw [List.map_cons, List.zipIdx_cons, List.mapM_cons, hx, ih hrest]
    rfl

section Maps

variable {onStruct : StructOfJson} {key value : Layout} {es : List (Value × Value)}
  (hvalues : ∀ e ∈ es, ∀ path, ofTree onStruct value path e.2.toJson = .ok e.2)
include hvalues

/-- An object is read as a map whose keys are strings. -/
theorem ofTree_obj (hkeys : ∀ e ∈ es, key = .string ∧ e.1 = .string (e.1.text?.getD ""))
    (path : Path) :
    ofTree onStruct (.map key value) path
      (.obj (es.map fun e => (e.1.text?.getD "", e.2.toJson))) = .ok (.map es) := by
  rw [ofTree, bind_eq_ok]
  refine ⟨es, mapM_eq_ok.2 ?_, rfl⟩
  rw [List.forall₂_map_left_iff, List.forall₂_same]
  intro e he
  obtain ⟨rfl, hkey⟩ := hkeys e he
  simp only [keyTree, ok_bind, ofTree]
  rw [hvalues e he, ← hkey]
  rfl

/-- Pairs are read as a map with any keys. -/
theorem ofTree_pairs (hkeys : ∀ e ∈ es, ∀ path, ofTree onStruct key path e.1.toJson = .ok e.1)
    (path : Path) :
    ofTree onStruct (.map key value) path (.arr (es.map fun e => .arr [e.1.toJson, e.2.toJson])) =
      .ok (.map es) := by
  rw [ofTree, bind_eq_ok]
  refine ⟨es, mapM_zipIdx (fun e he i => ?_) 0, rfl⟩
  dsimp only
  rw [hkeys e he, hvalues e he]
  rfl

end Maps

/-- A value that came off the wire is read from its tree, with any fuel that the tree does not
outweigh. -/
theorem ofTree_toJson {d : DocumentLayout} (hd : d.FieldsDiffer) {room : Nat} {l : Layout}
    {bs : List UInt8} {v : Value} (h : Yields d room l bs v) {fuel : Nat}
    (hfuel : v.toJson.weight ≤ fuel) (path : Path) :
    ofTree (structOfTree d fuel) l path v.toJson = .ok v := by
  induction h generalizing fuel path with
  | fixed => exact scalarOfJson_ofBits ..
  | absent => rfl
  | @present _ scalar =>
    rw [ofTree]
    · exact scalarOfJson_ofBits ..
    · exact toJson_ofBits_ne_null scalar _
  | string => rfl
  | fixedBytes | dynamicBytes =>
    rw [toJson, ofTree, bytesOfJson, Hex.decodeMarked?_encode]
    rfl
  | fixedArray _ _ ih | dynamicArray _ _ _ ih =>
    rw [toJson, itemsToJson_eq] at hfuel ⊢
    rw [ofTree, itemsOfJson, ok_bind, bind_eq_ok]
    refine ⟨_, mapM_zipIdx (List.forall_mem_map.2 fun p hp i => ?_) 0, rfl⟩
    have hmem : p.2 ∈ _ := List.mem_map_of_mem hp
    exact ih p hp (Json.weight_lt_of_arr hfuel hmem).le (path.index i)
  | @map room key value parts _ _ hkeys hvalues ihk ihv =>
    have hmem : ∀ p ∈ parts, (p.1.2, p.2.2) ∈ parts.map fun p => (p.1.2, p.2.2) :=
      fun p hp => List.mem_map_of_mem (f := fun p => (p.1.2, p.2.2)) hp
    rw [toJson_map] at hfuel ⊢
    by_cases htexts : (parts.map fun p => (p.1.2, p.2.2)).all (·.1.text?.isSome)
    · -- A key that is a string was read as one, so the layout has string keys.
      rw [if_pos htexts] at hfuel ⊢
      refine ofTree_obj (List.forall_mem_map.2 fun p hp => ?_)
        (List.forall_mem_map.2 fun p hp => ?_) path
      · exact ihv p hp (Json.weight_lt_of_obj hfuel (hmem p hp)).le
      · obtain ⟨s, hs⟩ := Option.isSome_iff_exists.1 (List.all_eq_true.1 htexts _ (hmem p hp))
        rw [hs]
        exact text?_of_yields (hkeys p hp) hs
    · rw [if_neg htexts] at hfuel ⊢
      have hpair : ∀ p ∈ parts, p.1.2.toJson.weight ≤ fuel ∧ p.2.2.toJson.weight ≤ fuel := by
        intro p hp
        have hweight := Json.weight_lt_of_arr hfuel (hmem p hp)
        simp only [Json.weight, Json.weightItems] at hweight
        omega
      refine ofTree_pairs (List.forall_mem_map.2 fun p hp => ?_)
        (List.forall_mem_map.2 fun p hp => ?_) path
      · exact ihv p hp (hpair p hp).2
      · exact ihk p hp (hpair p hp).1
  | @struct room type s parts hs hfields _ ih =>
    -- A struct takes one of the fuel, and its object outweighs every field by at least that.
    cases fuel with
    | zero => simp [toJson, Json.weight] at hfuel
    | succ fuel =>
      have hlookup : ∀ p ∈ parts, (fieldsToJson (parts.map fun p => (p.1.name, p.2.2))).lookup
          p.1.name = some p.2.2.toJson := by
        intro p hp
        rw [lookup_fieldsToJson, lookup_part hd hs hfields hp]
        rfl
      have hknown : (fieldsToJson (parts.map fun p => (p.1.name, p.2.2))).find?
          (fun e => !s.fields.any (·.name == e.1)) = none := by
        rw [fieldsToJson_eq, List.map_map, List.find?_eq_none]
        refine List.forall_mem_map.2 fun p hp => ?_
        have hany : s.fields.any (·.name == p.1.name) = true :=
          List.any_eq_true.2 ⟨p.1, hfields ▸ List.mem_map_of_mem hp, beq_self_eq_true _⟩
        simp [hany]
      rw [toJson, ofTree, structOfTree, hs]
      simp only [entriesOfJson, ok_bind, hknown]
      rw [bind_eq_ok]
      refine ⟨_, mapM_eq_ok.2 ?_, rfl⟩
      rw [← hfields, List.forall₂_map_left_iff, List.forall₂_map_right_iff, List.forall₂_same]
      intro p hp
      rw [toJson, fieldsToJson_eq, List.map_map] at hfuel
      have hweight := Json.weight_lt_of_obj hfuel hp
      rw [fieldOfTree, hlookup p hp]
      simp only
      rw [ih p hp (Nat.lt_succ_iff.1 hweight) (path.field p.1.name)]
      rfl

end Value

/-! ## Trees that keep their values -/

namespace Slot

/-- A float of a slot is finite. -/
def Finite : Slot → Prop
  | (_, .float x) => x.isFinite = true
  | _ => True

/-- A map of a slot repeats no string key. -/
def TextsDiffer : Slot → Prop
  | (_, .map es) => (es.filterMap (·.1.text?)).Nodup
  | _ => True

end Slot

namespace Value

theorem kept_ofBits {scalar : Scalar} {bits : Nat} {l : Layout}
    (h : Slot.Finite (l, scalar.ofBits bits)) : (scalar.ofBits bits).toJson.Kept := by
  cases scalar with
  | f32 | f64 => exact ⟨if_pos h, rfl⟩
  | _ => exact ⟨rfl, rfl⟩

/-- The tree of a value that came off the wire is kept as it is, when its floats are finite and
its maps repeat no string key. -/
theorem kept_toJson {d : DocumentLayout} (hd : d.FieldsDiffer) {room : Nat} {l : Layout}
    {bs : List UInt8} {v : Value} (h : Yields d room l bs v)
    (hall : Slot.EveryPart d (fun a => a.Finite ∧ a.TextsDiffer) (l, v)) : v.toJson.Kept := by
  induction h with
  | fixed | present => exact kept_ofBits hall.self.1
  | absent | string | fixedBytes | dynamicBytes => exact ⟨rfl, rfl⟩
  | fixedArray _ _ ih =>
    rw [toJson, itemsToJson_eq, List.map_map]
    refine .arr (List.forall_mem_map.2 fun p hp => ih p hp ?_)
    exact hall.held (.fixedItem (List.mem_map_of_mem hp))
  | dynamicArray _ _ _ ih =>
    rw [toJson, itemsToJson_eq, List.map_map]
    refine .arr (List.forall_mem_map.2 fun p hp => ih p hp ?_)
    exact hall.held (.item (List.mem_map_of_mem hp))
  | @map room key value parts _ _ _ _ ihk ihv =>
    have hkey : ∀ p ∈ parts, p.1.2.toJson.Kept := fun p hp =>
      ihk p hp (hall.held (.key (List.mem_map_of_mem (f := fun p => (p.1.2, p.2.2)) hp)))
    have hvalue : ∀ p ∈ parts, p.2.2.toJson.Kept := fun p hp =>
      ihv p hp (hall.held (.value (List.mem_map_of_mem (f := fun p => (p.1.2, p.2.2)) hp)))
    rw [toJson_map]
    by_cases htexts : (parts.map fun p => (p.1.2, p.2.2)).all (·.1.text?.isSome)
    · rw [if_pos htexts]
      refine .obj ?_ (List.forall_mem_map.2 (List.forall_mem_map.2 hvalue))
      rw [List.map_map]
      have hdiffer : ((parts.map fun p => (p.1.2, p.2.2)).filterMap (·.1.text?)).Nodup :=
        hall.self.2
      rwa [filterMap_text? htexts] at hdiffer
    · rw [if_neg htexts]
      refine .arr (List.forall_mem_map.2 (List.forall_mem_map.2 fun p hp => ?_))
      exact .arr (List.forall_mem_cons.2 ⟨hkey p hp, List.forall_mem_singleton.2 (hvalue p hp)⟩)
  | @struct room type s parts hs hfields _ ih =>
    rw [toJson, fieldsToJson_eq, List.map_map]
    refine .obj ?_ (List.forall_mem_map.2 fun p hp => ih p hp ?_)
    · have hdiffer := hd.get hs
      rw [← hfields, List.map_map] at hdiffer
      rwa [List.map_map]
    · exact hall.held
        (.field hs (hfields ▸ List.mem_map_of_mem hp) (lookup_part hd hs hfields hp))

end Value

namespace Codec

/-- A value that was read comes back from its tree, when its floats are finite and its maps repeat
no string key. -/
theorem values_come_back_from_trees (doc : Document) (hdoc : doc.check = .ok ()) :
    ∃ c, Codec.ofDocument doc = .ok c ∧
      ∀ type buf offset v stop, c.unmarshal type buf offset = .ok (v, stop) →
        Slot.EveryPart c.layouts Slot.Finite (.embedded type, v) →
        Slot.EveryPart c.layouts Slot.TextsDiffer (.embedded type, v) →
        c.valueOfJson type v.tree = .ok v := by
  obtain ⟨shapes, hsound, hlayout, _⟩ := Document.shaped_of_check hdoc
  have hd := doc.fieldsDiffer_layoutOf hsound
  refine ⟨ofLayout (doc.layoutOf shapes), by rw [ofDocument, hlayout], ?_⟩
  intro type buf offset v stop hread hfinite htexts
  obtain ⟨bs, _, _, hyields⟩ := yields_of_unmarshal hread
  have hkept := Value.kept_toJson hd hyields fun a ha => ⟨hfinite a ha, htexts a ha⟩
  have htree : v.tree = v.toJson := by rw [Value.tree, hkept.finite, hkept.merged]
  rw [valueOfJson, htree]
  exact Value.ofTree_toJson hd hyields (Nat.le_refl _) (.start type)

/-- A document of one struct, with a map from strings to floats. -/
def tableDocument : Document :=
  ⟨"p", [⟨"S", none, [⟨"T", ⟨.map, some (.ofKind .float64), some (.ofKind .string), 0, none⟩⟩]⟩]⟩

def tableLayout : DocumentLayout :=
  ⟨1, "p", .little, [⟨"S", [⟨"T", .map .string (.fixed .f64)⟩]⟩]⟩

def tableValue : Value := .struct [("T", .map [(.string "a", .float ⟨0x3ff8000000000000⟩)])]

/-- The slots of the table are the struct, its map, a key and a float. -/
theorem tidy_table : Slot.EveryPart tableLayout (fun a => a.Finite ∧ a.TextsDiffer)
    (.embedded "S", tableValue) := by
  refine Slot.everyPart_iff.2 ⟨⟨trivial, trivial⟩, fun a ha => ?_⟩
  cases ha with
  | field hs hf hx =>
    cases hs
    obtain rfl := List.mem_singleton.1 hf
    cases hx
    have hkeys : ["a"].Nodup := by decide
    refine Slot.everyPart_iff.2 ⟨⟨trivial, hkeys⟩, fun b hb => ?_⟩
    cases hb with
    | key he =>
      obtain rfl := List.mem_singleton.1 he
      exact Slot.everyPart_of_plain trivial ⟨trivial, trivial⟩
    | value he =>
      obtain rfl := List.mem_singleton.1 he
      exact Slot.everyPart_of_plain trivial ⟨rfl, trivial⟩

/-- A table with one entry is an object, and comes back from it. -/
theorem a_table_comes_back :
    tableDocument.check = .ok () ∧ ∃ c, Codec.ofDocument tableDocument = .ok c ∧
      tableValue.tree = .obj [("T", .obj [("a", .float ⟨0x3ff8000000000000⟩)])] ∧
      c.valueOfJson "S" tableValue.tree = .ok tableValue := by
  have hdoc : tableDocument.check = .ok () := by rfl
  obtain ⟨c, hc, hback⟩ := values_come_back_from_trees tableDocument hdoc
  obtain rfl : c = ofLayout tableLayout := Except.ok.inj (hc.symm.trans (by rfl))
  have hread : (ofLayout tableLayout).unmarshal "S"
      [1, 0, 0, 0, 1, 0, 0, 0, 97, 0, 0, 0, 0, 0, 0, 248, 63] 0 = .ok (tableValue, 17) := by rfl
  refine ⟨hdoc, _, hc, by rfl, hback "S" _ 0 _ 17 hread ?_ ?_⟩
  · exact fun a ha => (tidy_table a ha).1
  · exact fun a ha => (tidy_table a ha).2

end Codec

end WireSchema
