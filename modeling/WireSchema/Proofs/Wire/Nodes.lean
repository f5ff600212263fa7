-- How large a value can get that was read from so many bytes. Elements that take bytes are paid
-- for by those bytes, elements that take none are only so many, and structs stand inside each
-- other only so deep, so the nodes of a value are bounded by the bytes times a factor that hangs
-- on the layouts alone.
import Mathlib.Algebra.Order.BigOperators.Group.List
import Mathlib.Tactic.Ring
import WireSchema.Proofs.Wire.Delimited

namespace WireSchema

/-! ## Nodes of a value -/

namespace Value

mutual

/-- The number of values in a value, itself included. -/
def nodes : Value → Nat
  | array xs => 1 + itemNodes xs
  | map es => 1 + entryNodes es
  | struct fields => 1 + fieldNodes fields
  | _ => 1

def itemNodes : List Value → Nat
  | [] => 0
  | x :: xs => x.nodes + itemNodes xs

def entryNodes : List (Value × Value) → Nat
  | [] => 0
  | (k, v) :: es => k.nodes + v.nodes + entryNodes es

def fieldNodes : List (String × Value) → Nat
  | [] => 0
  | (_, v) :: fields => v.nodes + fieldNodes fields

end

theorem itemNodes_eq (xs : List Value) : itemNodes xs = (xs.map nodes).sum := by
  induction xs with
  | nil => rfl
  | cons x xs ih => simp [itemNodes, ih]

theorem entryNodes_eq (es : List (Value × Value)) :
    entryNodes es = (es.map fun e => e.1.nodes + e.2.nodes).sum := by
  induction es with
  | nil => rfl
  | cons e es ih => simp [entryNodes, ih]

theorem fieldNodes_eq (fields : List (String × Value)) :
    fieldNodes fields = (fields.map fun f => f.2.nodes).sum := by
  induction fields with
  | nil => rfl
  | cons f fields ih => simp [fieldNodes, ih]

theorem nodes_ofBits (scalar : Scalar) (bits : Nat) : (scalar.ofBits bits).nodes = 1 := by
  cases scalar <;> rfl

end Value

/-! ## The factor of a layout -/

/-- The most nodes that a value of the layout has for each byte, where a value without bytes
counts as one byte. `onStruct` answers for structs. -/
def Layout.nodeFactor (onStruct : String → Nat) : Layout → Nat
  | .fixedArray len elem => 1 + (len.toNat + 1) * elem.nodeFactor onStruct
  | .dynamicArray elem => 1 + maxEmptyElements * elem.nodeFactor onStruct
  | .map key value =>
    1 + maxEmptyElements * (key.nodeFactor onStruct + value.nodeFactor onStruct)
  | .embedded type => onStruct type
  | _ => 1

namespace DocumentLayout

/-- The factor of a struct that may hold structs down to the given depth. -/
def structFactor (d : DocumentLayout) : Nat → String → Nat
  | 0, _ => 0
  | room + 1, type =>
    match d.get? type with
    | none => 0
    | some s => 1 + (s.fields.map fun f => f.layout.nodeFactor (d.structFactor room)).sum

theorem structFactor_succ {d : DocumentLayout} {type : String} {s : StructLayout}
    (hs : d.get? type = some s) (room : Nat) :
    d.structFactor (room + 1) type =
      1 + (s.fields.map fun f => f.layout.nodeFactor (d.structFactor room)).sum := by
  rw [structFactor, hs]

/-- A factor for all structs of the document. -/
def nodeFactor (d : DocumentLayout) : Nat :=
  (d.structs.map fun s => d.structFactor maxDepth s.name).sum

theorem structFactor_le {d : DocumentLayout} {type : String} {s : StructLayout}
    (hs : d.get? type = some s) : d.structFactor maxDepth type ≤ d.nodeFactor := by
  have hname : s.name = type := by simpa using List.find?_some hs
  have hmem : s ∈ d.structs := List.mem_of_find?_eq_some hs
  subst hname
  exact List.single_le_sum (fun _ _ => Nat.zero_le _) _
    (List.mem_map_of_mem (f := fun s => d.structFactor maxDepth s.name) hmem)

end DocumentLayout

/-! ## Sums over parts -/

section Sums

variable {α : Type} {nodes size : α → Nat} {parts : List α}

/-- Parts that share a factor pay with their bytes, and with one more for each part. -/
theorem sum_nodes_le {factor : Nat} (h : ∀ p ∈ parts, nodes p ≤ factor * (1 + size p)) :
    (parts.map nodes).sum ≤ factor * (parts.length + (parts.map size).sum) := by
  induction parts with
  | nil => simp
  | cons p parts ih =>
    obtain ⟨hp, hrest⟩ := List.forall_mem_cons.1 h
    have hsum := ih hrest
    simp only [List.map_cons, List.sum_cons, List.length_cons]
    calc nodes p + (parts.map nodes).sum
        ≤ factor * (1 + size p) + factor * (parts.length + (parts.map size).sum) :=
          Nat.add_le_add hp hsum
      _ = factor * (parts.length + 1 + (size p + (parts.map size).sum)) := by ring

/-- Parts that have factors of their own stay below the sum of the factors. -/
theorem sum_nodes_le_sum {factor : α → Nat} (h : ∀ p ∈ parts, nodes p ≤ factor p * (1 + size p)) :
    (parts.map nodes).sum ≤ (parts.map factor).sum * (1 + (parts.map size).sum) := by
  induction parts with
  | nil => simp
  | cons p parts ih =>
    obtain ⟨hp, hrest⟩ := List.forall_mem_cons.1 h
    have hsum := ih hrest
    simp only [List.map_cons, List.sum_cons]
    have hfirst : nodes p ≤ factor p * (1 + (size p + (parts.map size).sum)) :=
      hp.trans (Nat.mul_le_mul_left _ (by omega))
    have hlater : (parts.map nodes).sum ≤
        (parts.map factor).sum * (1 + (size p + (parts.map size).sum)) :=
      hsum.trans (Nat.mul_le_mul_left _ (by omega))
    rw [Nat.add_mul]
    exact Nat.add_le_add hfirst hlater

/-- A container whose parts share a factor, when its bytes pay for its parts by an allowance. -/
theorem container_nodes_le {factor allowance bytes : Nat}
    (h : ∀ p ∈ parts, nodes p ≤ factor * (1 + size p))
    (hpaid : parts.length + (parts.map size).sum ≤ allowance * (1 + bytes)) :
    1 + (parts.map nodes).sum ≤ (1 + allowance * factor) * (1 + bytes) := by
  have hsum := sum_nodes_le h
  have hbound := Nat.mul_le_mul_left factor hpaid
  calc 1 + (parts.map nodes).sum
      ≤ 1 + factor * (allowance * (1 + bytes)) := by omega
    _ = 1 + allowance * factor * (1 + bytes) := by ring
    _ ≤ (1 + allowance * factor) * (1 + bytes) := by
      rw [Nat.add_mul]
      omega

/-- Counted parts pay for themselves: they take a byte each, or they are few. -/
theorem counted_paid {width : UInt64} (hfew : width = 0 → parts.length ≤ maxEmptyElements)
    (hwidth : ∀ p ∈ parts, width.toNat ≤ size p) :
    parts.length + (parts.map size).sum ≤
      maxEmptyElements * (1 + (countWidth + (parts.map size).sum)) := by
  by_cases hzero : width = 0
  · have hlen := hfew hzero
    simp only [maxEmptyElements] at hlen ⊢
    omega
  · have hpos : 1 ≤ width.toNat := by
      rw [Nat.one_le_iff_ne_zero]
      intro h
      exact hzero (UInt64.toNat_inj.1 h)
    have hsum := List.card_nsmul_le_sum (parts.map size) 1
      (List.forall_mem_map.2 fun p hp => hpos.trans (hwidth p hp))
    rw [List.length_map, nsmul_eq_mul, Nat.cast_id, Nat.mul_one] at hsum
    simp only [maxEmptyElements]
    omega

end Sums

/-! ## Values that were read -/

namespace Wire

/-- A value that was read has at most as many nodes as its bytes and its layout allow. -/
theorem Yields.nodes_le {d : DocumentLayout} {room : Nat} {l : Layout} {bs : List UInt8}
    {v : Value} (h : Yields d room l bs v) :
    v.nodes ≤ l.nodeFactor (d.structFactor room) * (1 + bs.length) := by
  induction h with
  | fixed | present =>
    simp only [Value.nodes_ofBits, Layout.nodeFactor]
    omega
  | absent | string | fixedBytes | dynamicBytes =>
    simp only [Value.nodes, Layout.nodeFactor]
    omega
  | @fixedArray room len elem parts hlen _ ih =>
    rw [Value.nodes, Value.itemNodes_eq, List.map_map, Layout.nodeFactor, List.length_flatMap]
    refine container_nodes_le ih ?_
    rw [hlen, Nat.add_mul]
    have := Nat.le_mul_of_pos_right len.toNat (Nat.add_pos_left Nat.one_pos
      (parts.map fun p => p.1.length).sum)
    omega
  | @dynamicArray room elem parts _ hfew hparts ih =>
    rw [Value.nodes, Value.itemNodes_eq, List.map_map, Layout.nodeFactor, List.length_append,
      length_countForm, List.length_flatMap]
    refine container_nodes_le ih (counted_paid hfew fun p hp => ?_)
    exact DocumentLayout.minWidth_le_of_spans (hparts p hp).spans
  | @map room key value parts _ hfew hkeys hvalues ihk ihv =>
    rw [Value.nodes, Value.entryNodes_eq, List.map_map, Layout.nodeFactor, List.length_append,
      length_countForm, List.length_flatMap]
    refine container_nodes_le (fun p hp => ?_) (counted_paid hfew fun p hp => ?_)
    · have hkey := ihk p hp
      have hvalue := ihv p hp
      simp only [Function.comp_apply, List.length_append]
      calc p.1.2.nodes + p.2.2.nodes
          ≤ key.nodeFactor (d.structFactor room) * (1 + p.1.1.length) +
            value.nodeFactor (d.structFactor room) * (1 + p.2.1.length) :=
            Nat.add_le_add hkey hvalue
        _ ≤ key.nodeFactor (d.structFactor room) * (1 + (p.1.1.length + p.2.1.length)) +
            value.nodeFactor (d.structFactor room) * (1 + (p.1.1.length + p.2.1.length)) := by
            gcongr <;> omega
        _ = _ := by ring
    · have hkey := DocumentLayout.minWidth_le_of_spans (hkeys p hp).spans
      have hvalue := DocumentLayout.minWidth_le_of_spans (hvalues p hp).spans
      rw [Width.saturatingAdd, Width.toNat_saturate, List.length_append]
      omega
  | @struct room type s parts hs hfields _ ih =>
    have hfactor : (s.fields.map fun f => f.layout.nodeFactor (d.structFactor room)).sum =
        (parts.map fun p => p.1.layout.nodeFactor (d.structFactor room)).sum := by
      rw [← hfields, List.map_map]
      rfl
    have hsum := sum_nodes_le_sum ih
    rw [Value.nodes, Value.fieldNodes_eq, List.map_map, Layout.nodeFactor,
      DocumentLayout.structFactor_succ hs, hfactor, List.length_flatMap, Nat.add_mul]
    exact Nat.add_le_add (by omega) hsum

end Wire

namespace Codec

open Wire

/-- What was read is bounded by the bytes that it was read from: for each document there is a
factor such that no value has more nodes than the factor times its bytes and one, whatever counts
the buffer announces. -/
theorem nodes_bounded_by_bytes (doc : Document) (hdoc : doc.check = .ok ()) :
    ∃ c, Codec.ofDocument doc = .ok c ∧ ∃ factor, ∀ type buf offset v stop,
      c.unmarshal type buf offset = .ok (v, stop) →
        offset ≤ stop ∧ v.nodes ≤ factor * (1 + (stop - offset)) := by
  obtain ⟨shapes, _, hlayout, _⟩ := Document.shaped_of_check hdoc
  refine ⟨ofLayout (doc.layoutOf shapes), by rw [ofDocument, hlayout],
    (doc.layoutOf shapes).nodeFactor, ?_⟩
  intro type buf offset v stop hread
  obtain ⟨bs, _, rfl, hyields⟩ := yields_of_unmarshal hread
  have hnodes := hyields.nodes_le
  refine ⟨Nat.le_add_right .., ?_⟩
  rw [Nat.add_sub_cancel_left]
  cases hyields with
  | struct hs =>
    exact hnodes.trans (Nat.mul_le_mul_right _ (DocumentLayout.structFactor_le hs))

/-- A document of an empty struct, and a struct with a list of those and a list of numbers. -/
def emptyDocument : Document :=
  ⟨"p", [⟨"E", none, []⟩,
    ⟨"S", none, [⟨"Es", ⟨.array, some ⟨.struct, none, none, 0, some "E"⟩, none, 0, none⟩⟩,
      ⟨"Ns", ⟨.array, some (.ofKind .uint16), none, 0, none⟩⟩]⟩]⟩

def emptyLayout : DocumentLayout :=
  ⟨1, "p", .little, [⟨"E", []⟩,
    ⟨"S", [⟨"Es", .dynamicArray (.embedded "E")⟩, ⟨"Ns", .dynamicArray (.fixed .u16)⟩]⟩]⟩

/-- Three structs that take no bytes and a number that takes two, behind their counts: seven nodes
from ten bytes. -/
theorem three_empty_structs_are_bounded :
    emptyDocument.check = .ok () ∧ ∃ c, Codec.ofDocument emptyDocument = .ok c ∧
      ∃ factor, ∃ v : Value,
        c.unmarshal "S" [3, 0, 0, 0, 1, 0, 0, 0, 5, 0] 0 = .ok (v, 10) ∧ v.nodes = 7 ∧
          v.nodes ≤ factor * (1 + (10 - 0)) := by
  have hdoc : emptyDocument.check = .ok () := by rfl
  obtain ⟨c, hc, factor, hall⟩ := nodes_bounded_by_bytes emptyDocument hdoc
  obtain rfl : c = ofLayout emptyLayout := Except.ok.inj (hc.symm.trans (by rfl))
  have hread : (ofLayout emptyLayout).unmarshal "S" [3, 0, 0, 0, 1, 0, 0, 0, 5, 0] 0 =
      .ok (.struct [("Es", .array [.struct [], .struct [], .struct []]),
        ("Ns", .array [.uint 5])], 10) := by rfl
  exact ⟨hdoc, _, hc, factor, _, hread, rfl, (hall "S" _ 0 _ 10 hread).2⟩

end Codec

end WireSchema
