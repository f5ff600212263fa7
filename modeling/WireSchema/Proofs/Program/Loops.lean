-- Loops of unmarshal programs. A loop reads the parts of an array or a map one after the other
-- into a temporary and puts each into the container, which goes to its place in the end. The
-- numbers of the temporaries keep them apart, so no step disturbs what an outer one needs.
import WireSchema.Proofs.Program.Receiving

namespace WireSchema

open Outcome Wire

/-! ## Values in places -/

/-- A program leaves a value in a place and stops behind it, and the older places hold what they
did. -/
structure Leaves (rt : Runtime) (n : Nat) (place : Place) (st : Store) (r : Value × Input)
    (st' : Store) : Prop where
  input : st'.input = r.2
  value : st'.slots place = some (.value (r.1.collapse rt.sameKey))
  keeps : Store.Keeps n place st st'

/-- The programs of embedded structs follow the codec. -/
def FollowsStructs (rt : Runtime) (onStruct : ReadStruct) (nested : ReadNested) : Prop :=
  ∀ type path input, Follows (onStruct type path input) (nested type input)
    fun r r' => r' = (r.1.collapse rt.sameKey, r.2)

theorem leaves_set (rt : Runtime) (n : Nat) (place : Place) (st : Store) (v : Value)
    (input : Input) : Leaves rt n place st (v, input)
      ((st.set place (.value (v.collapse rt.sameKey))).move input) where
  input := rfl
  value := Store.slots_set
  keeps := (Store.Keeps.refl n place st).set_self

/-! ## Loops -/

section Loops

variable {rt : Runtime} {nested : ReadNested}

/-- A fresh temporary for a value changes nothing else. -/
theorem follows_declared {readItem : Input → Except WireError (Value × Input)} {ops : List Op}
    {n : Nat} {item : String} (type : Descriptor)
    (h : ∀ st, Follows (readItem st.input) (Op.receiveAll rt nested ops st)
      (Leaves rt n (.temp item) st)) (st : Store) :
    Follows (readItem st.input) (Op.receiveAll rt nested (.declareLocal item type :: ops) st)
      (Leaves rt n (.temp item) st) := by
  refine (h (st.set (.temp item) (.value (rt.initial type)))).mono fun r st' hleaves => ?_
  refine ⟨hleaves.input, hleaves.value, fun q hq hne => ?_⟩
  rw [hleaves.keeps q hq hne, Store.slots_set_of_ne hne]

/-- The last step of a container: it goes from its temporary to its place. -/
theorem leaves_assign {n : Nat} {place : Place} {var : String} {st st' : Store} {v : Value}
    {next : Input} (hcell : st'.slots (.temp var) = some (.value (v.collapse rt.sameKey)))
    (hkeeps : Store.Keeps n place st st') (hnext : st'.input = next) :
    ∃ st'', Op.receiveAll rt nested [.assign place var] st' = .ok st'' ∧
      Leaves rt n place st (v, next) st'' := by
  have hassign : Op.receive rt nested (.assign place var) st' =
      .ok (st'.set place (.value (v.collapse rt.sameKey))) := by
    simp only [Op.receive, Store.value_eq_ok hcell, ok_bind]
    rfl
  exact ⟨_, (Op.receiveAll_one _ _).trans hassign, hnext, Store.slots_set, hkeeps.set_self⟩

/-- One turn of a loop leaves its index and the places older than the index as they were. -/
theorem Leaves.turn {m k : Nat} {index item : String} {st st' : Store}
    {r : Value × Input} (hindex : Text.endNumber index = m) (hitem : Text.endNumber item = m + 1)
    (h : Leaves rt (m + 2) (.temp item) (st.set (.temp index) (.number k)) r st') :
    st'.slots (.temp index) = some (.number k) ∧
      ∀ q : Place, q.Older m → st'.slots q = st.slots q := by
  constructor
  · rw [h.keeps (.temp index) (by simp only [Place.Older]; omega) (Place.temp_ne (by omega)),
      Store.slots_set]
  · intro q hq
    rw [h.keeps q (hq.mono (by omega)) (hq.ne_temp (by omega)),
      Store.slots_set_of_ne (hq.ne_temp (by omega))]

/-- A loop over elements fills a list from the front: the elements so far, and behind them the
rest that the list has after so many. -/
structure Filling (rt : Runtime) (n : Nat) (place : Place) (list : String)
    (rest : Nat → List Value) (st : Store) (seen : List Value) (st' : Store) : Prop where
  cell : st'.slots (.temp list) =
    some (.value (.array (seen.map (·.collapse rt.sameKey) ++ rest seen.length)))
  keeps : Store.Keeps n place st st'

/-- The loop of an array follows the codec, when its last step puts the element behind those
before. -/
theorem follows_items {readItem : Nat → Input → Except WireError (Value × Input)}
    {ops : List Op} {append : Op} {rest : Nat → List Value} {total m n : Nat} {place : Place}
    {list index item : String} {st st₁ : Store} (type : Descriptor)
    (hlist : Text.endNumber list < m) (hn : n ≤ Text.endNumber list)
    (hindex : Text.endNumber index = m) (hitem : Text.endNumber item = m + 1)
    (hops : ∀ i st, Follows (readItem i st.input) (Op.receiveAll rt nested ops st)
      (Leaves rt (m + 2) (.temp item) st))
    (happend : ∀ (xs : List Value) x (st : Store), xs.length < total →
      st.slots (.temp list) = some (.value (.array (xs ++ rest xs.length))) →
      st.slots (.temp index) = some (.number xs.length) →
      st.slots (.temp item) = some (.value x) → append.receive rt nested st =
        .ok (st.set (.temp list) (.value (.array (xs ++ [x] ++ rest (xs.length + 1))))))
    (hstart : Filling rt n place list rest st [] st₁) :
    Follows (readMany readItem total 0 [] st₁.input)
      (runTimes (fun i st => Op.receiveAll rt nested
        (.declareLocal item type :: ops ++ [append]) (st.set (.temp index) (.number i)))
        total 0 st₁)
      fun r st' => st'.input = r.2 ∧ r.1.length = total ∧
        Filling rt n place list rest st r.1 st' := by
  refine follows_runTimes ?_ hstart
  rintro seen st' hlt ⟨hcell, hkeeps⟩
  have hpart := follows_declared type (hops seen.length)
    (st'.set (.temp index) (.number seen.length))
  rw [Op.receiveAll_append]
  refine hpart.andThen ?_
  rintro ⟨v, next⟩ st'' hleaves
  obtain ⟨hnumber, holder⟩ := hleaves.turn hindex hitem
  have hkeeps' := hkeeps.trans_of_older (by omega) holder
  have hcell' := (holder (.temp list) hlist).trans hcell
  have hreceive := happend (seen.map (·.collapse rt.sameKey)) _ st''
    (by rwa [List.length_map]) (by rwa [List.length_map]) (by rwa [List.length_map]) hleaves.value
  refine ⟨_, (Op.receiveAll_one _ _).trans hreceive, hleaves.input, ?_, hkeeps'.set_temp hn⟩
  rw [Store.slots_set, List.length_map, List.map_append, List.length_append]
  rfl

theorem Filling.assign {n : Nat} {place : Place} {list : String} {rest : Nat → List Value}
    {st st' : Store} {xs : List Value} {next : Input}
    (h : Filling rt n place list rest st xs st') (hrest : rest xs.length = [])
    (hnext : st'.input = next) :
    ∃ st'', Op.receiveAll rt nested [.assign place list] st' = .ok st'' ∧
      Leaves rt n place st (.array xs, next) st'' := by
  have hcell := h.cell
  rw [hrest, List.append_nil, ← Value.collapseItems_eq, ← Value.collapse] at hcell
  exact leaves_assign hcell h.keeps hnext

/-- The program of an array of fixed length follows the codec. -/
theorem follows_fixedItems {readItem : Nat → Input → Except WireError (Value × Input)}
    {ops : List Op} {type : Descriptor} {n : Nat} {place : Place} {list index item : String}
    (hlist : Text.endNumber list = n) (hindex : Text.endNumber index = n + 1)
    (hitem : Text.endNumber item = n + 2)
    (hops : ∀ i st, Follows (readItem i st.input) (Op.receiveAll rt nested ops st)
      (Leaves rt (n + 3) (.temp item) st)) (len : UInt32) (st : Store) :
    Follows (do
        let (xs, input) ← readMany readItem len.toNat 0 [] st.input
        return (.array xs, input))
      (Op.receiveAll rt nested [.newList list type (.fixed len),
        .loop (.fixed len) index
          (.declareLocal item type :: ops ++ [.append list item (some index)]),
        .assign place list] st)
      (Leaves rt n place st) := by
  have hstart : Filling rt n place list
      (fun k => List.replicate (len.toNat - k) (rt.initial type)) st []
      (st.set (.temp list) (.value (.array (List.replicate len.toNat (rt.initial type))))) :=
    ⟨Store.slots_set, (Store.Keeps.refl n place st).set_temp (by omega)⟩
  refine (follows_items type (by omega) (by omega) hindex hitem hops ?_ hstart).bind ?_
  · intro xs x st hlt hcell hnumber hvalue
    -- The first of the rest is the one at the index.
    obtain ⟨k, hk⟩ : ∃ k, len.toNat - xs.length = k + 1 := ⟨len.toNat - xs.length - 1, by omega⟩
    have hrest : len.toNat - (xs.length + 1) = k := by omega
    simp only [hk, List.replicate_succ] at hcell
    simp [Op.receive, Store.value_eq_ok hvalue, Store.value_eq_ok hcell,
      Store.number_eq_ok hnumber, hrest]
  · rintro ⟨xs, next⟩ st' ⟨hnext, hlen, hfilling⟩
    exact hfilling.assign (by simp [show xs.length = len.toNat from hlen]) hnext

/-- A program that reads a count, makes an empty container and loops as often as the count says
follows the codec when the loop does, from a store with the container in its temporary. -/
theorem follows_counted {count box index : String} {make : Op} {empty : Value} {body ops : List Op}
    {n : Nat} {width : UInt64} {path : Path} {st : Store}
    {next : Nat × Input → Except WireError (Value × Input)} {R : Value × Input → Store → Prop}
    (place : Place) (hcount : Text.endNumber count = n) (hbox : Text.endNumber box = n + 1)
    (hmake : ∀ st, make.receive rt nested st = .ok (st.set (.temp box) (.value empty)))
    (h : ∀ total st₁, st₁.slots (.temp box) = some (.value empty) → Store.Keeps n place st st₁ →
      Follows (next (total, st₁.input))
        (runTimes (fun i st => Op.receiveAll rt nested body (st.set (.temp index) (.number i)))
          total 0 st₁ >>= Op.receiveAll rt nested ops) R) :
    Follows (readElementCount width path st.input >>= next)
      (Op.receiveAll rt nested
        (.readCount count width :: make :: .loop (.var count) index body :: ops) st) R := by
  rw [Op.receiveAll, Op.receive, bind_assoc]
  refine (st.input.follows_pullElementCount width path).bind ?_
  rintro ⟨total, input⟩ _ rfl
  have hcounted : Store.Keeps n place st ((st.set (.temp count) (.number total)).move input) :=
    (Store.Keeps.refl n place st).set_temp (by omega)
  have htotal : (((st.set (.temp count) (.number total)).move input).set (.temp box)
      (.value empty)).number (.temp count) = .ok total := by
    refine Store.number_eq_ok ?_
    rw [Store.slots_set_of_ne (Place.temp_ne (by omega)), Store.slots_move, Store.slots_set]
  have hloop := h total (((st.set (.temp count) (.number total)).move input).set (.temp box)
    (.value empty)) Store.slots_set (hcounted.set_temp (by omega))
  simp only [pure_bind, Op.receiveAll, hmake, ok_bind, Op.receive, Store.count, htotal]
  exact hloop

theorem follows_countedItems {readItem : Nat → Input → Except WireError (Value × Input)}
    {ops : List Op} {type : Descriptor} {n : Nat} {place : Place} {count list index item : String}
    (hcount : Text.endNumber count = n) (hlist : Text.endNumber list = n + 1)
    (hindex : Text.endNumber index = n + 2) (hitem : Text.endNumber item = n + 3)
    (hops : ∀ i st, Follows (readItem i st.input) (Op.receiveAll rt nested ops st)
      (Leaves rt (n + 4) (.temp item) st)) (width : UInt64) (path : Path) (st : Store) :
    Follows (do
        let (total, input) ← readElementCount width path st.input
        let (xs, input) ← readMany readItem total 0 [] input
        return (.array xs, input))
      (Op.receiveAll rt nested [.readCount count width, .newList list type (.var count),
        .loop (.var count) index (.declareLocal item type :: ops ++ [.append list item none]),
        .assign place list] st)
      (Leaves rt n place st) := by
  refine follows_counted place hcount hlist (fun _ => rfl) fun total st₁ hempty hkeeps => ?_
  have hstart : Filling rt n place list (fun _ => []) st [] st₁ := ⟨hempty, hkeeps⟩
  refine (follows_items type (by omega) (by omega) hindex hitem hops ?_ hstart).bind ?_
  · intro xs x st hlt hcell hnumber hvalue
    simp only [List.append_nil] at hcell ⊢
    simp only [Op.receive, Store.value_eq_ok hvalue, Store.value_eq_ok hcell, ok_bind]
    rfl
  · rintro ⟨xs, next⟩ st' ⟨hnext, hlen, hfilling⟩
    exact hfilling.assign rfl hnext

/-- A loop over entries fills a map with the entries so far. -/
structure Mapping (rt : Runtime) (n : Nat) (place : Place) (map : String) (st : Store)
    (seen : List (Value × Value)) (st' : Store) : Prop where
  cell : st'.slots (.temp map) = some (.value (.map
    (insertAll rt.sameKey (Value.collapseEntries rt.sameKey seen))))
  keeps : Store.Keeps n place st st'

/-- One turn of a loop over entries: the key and the value that were read go into the map. -/
theorem Mapping.insert {n n' : Nat} {place : Place} {map index key value : String}
    {st st' st₁ st₂ : Store} {seen : List (Value × Value)} {k v : Value} {middle next : Input}
    {i : Nat} (h : Mapping rt n place map st seen st') (hmap : Text.endNumber map = n + 1)
    (hindex : Text.endNumber index = n + 2) (hkey : Text.endNumber key = n + 3)
    (hvalue : Text.endNumber value = n + 4) (hn' : n + 5 ≤ n')
    (hk : Leaves rt (n + 5) (.temp key) (st'.set (.temp index) (.number i)) (k, middle) st₁)
    (hv : Leaves rt n' (.temp value) st₁ (v, next) st₂) :
    ∃ st₃, Op.receiveAll rt nested [.insert map key value] st₂ = .ok st₃ ∧
      st₃.input = next ∧ Mapping rt n place map st (seen ++ [(k, v)]) st₃ := by
  have holder : ∀ q : Place, q.Older (n + 2) → st₂.slots q = st'.slots q := by
    intro q hq
    rw [hv.keeps q (hq.mono (by omega)) (hq.ne_temp (by omega)),
      hk.keeps q (hq.mono (by omega)) (hq.ne_temp (by omega)),
      Store.slots_set_of_ne (hq.ne_temp (by omega))]
  have hkeyCell : st₂.slots (.temp key) = some (.value (k.collapse rt.sameKey)) := by
    rw [hv.keeps (.temp key) (by simp only [Place.Older]; omega) (Place.temp_ne (by omega))]
    exact hk.value
  have hmapCell := (holder (.temp map) (by simp only [Place.Older]; omega)).trans h.cell
  have hinsert : Op.receive rt nested (.insert map key value) st₂ =
      .ok (st₂.set (.temp map) (.value (.map (insertAll rt.sameKey
        (Value.collapseEntries rt.sameKey (seen ++ [(k, v)])))))) := by
    simp only [Op.receive, Store.value_eq_ok hkeyCell, Store.value_eq_ok hv.value,
      Store.value_eq_ok hmapCell, ok_bind]
    rw [Value.collapseEntries_eq, Value.collapseEntries_eq, List.map_append, List.map_singleton,
      insertAll_append]
    rfl
  have hkeeps := h.keeps.trans_of_older (by omega) holder
  exact ⟨_, (Op.receiveAll_one _ _).trans hinsert, hv.input, Store.slots_set,
    hkeeps.set_temp (by omega)⟩

/-- The program of a map follows the codec. -/
theorem follows_entries {readKey readValue : Nat → Input → Except WireError (Value × Input)}
    {keyOps valueOps : List Op} {keyType valueType : Descriptor} {n n' : Nat} {place : Place}
    {count map index key value : String} (hcount : Text.endNumber count = n)
    (hmap : Text.endNumber map = n + 1) (hindex : Text.endNumber index = n + 2)
    (hkey : Text.endNumber key = n + 3) (hvalue : Text.endNumber value = n + 4) (hn' : n + 5 ≤ n')
    (hkeyOps : ∀ i st, Follows (readKey i st.input) (Op.receiveAll rt nested keyOps st)
      (Leaves rt (n + 5) (.temp key) st))
    (hvalueOps : ∀ i st, Follows (readValue i st.input) (Op.receiveAll rt nested valueOps st)
      (Leaves rt n' (.temp value) st)) (width : UInt64) (path : Path) (st : Store) :
    Follows (do
        let (total, input) ← readElementCount width path st.input
        let (es, input) ← readMany (fun i input => do
          let (k, input) ← readKey i input
          let (v, input) ← readValue i input
          return ((k, v), input)) total 0 [] input
        return (.map es, input))
      (Op.receiveAll rt nested [.readCount count width, .newMap map keyType valueType,
        .loop (.var count) index (.declareLocal key keyType :: keyOps ++
          .declareLocal value valueType :: valueOps ++ [.insert map key value]),
        .assign place map] st)
      (Leaves rt n place st) := by
  refine follows_counted place hcount hmap (fun _ => rfl) fun total st₁ hempty hkeeps => ?_
  have hstart : Mapping rt n place map st [] st₁ := ⟨hempty, hkeeps⟩
  refine (follows_runTimes (fun seen st' _ hmapping => ?_) hstart).bind ?_
  · rw [Op.receiveAll_append, Op.receiveAll_append, bind_assoc]
    refine (follows_declared keyType (hkeyOps seen.length)
      (st'.set (.temp index) (.number seen.length))).bind ?_
    rintro ⟨k, middle⟩ st₁ hk
    obtain rfl : st₁.input = middle := hk.input
    refine (follows_declared valueType (hvalueOps seen.length) st₁).bind ?_
    rintro ⟨v, next⟩ st₂ hv
    exact hmapping.insert hmap hindex hkey hvalue hn' hk hv
  · rintro ⟨es, next⟩ st' ⟨hnext, _, hcell, hkeeps⟩
    exact leaves_assign hcell hkeeps hnext

end Loops

end WireSchema
