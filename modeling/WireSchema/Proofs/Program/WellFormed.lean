-- Programs are well formed. Each of the three programs of a struct has steps of its own kinds
-- only, gives every temporary a name that no other has, and mentions a temporary only where it
-- can be seen. So the code made from a program has no step that it does not know.
import Mathlib.Data.List.Nodup
import WireSchema.Managed.Method
import WireSchema.Native.Method
import WireSchema.Proofs.Program.Scope
import WireSchema.Proofs.Schema.Checked

namespace WireSchema

/-! ## Kinds of steps -/

namespace Op

/-- The steps of a size program. -/
def measures : Op → Bool
  | addSize _ | forEach _ _ _ | forEachEntry _ _ _ _ => true
  | _ => false

/-- The steps of a marshal program. -/
def writes : Op → Bool
  | writeScalar _ _ | writeNullable _ _ | writeString _ | writeBytes _ _ => true
  | writeCount _ | checkLen _ _ | marshalNested _ => true
  | forEach _ _ _ | forEachEntry _ _ _ _ => true
  | _ => false

/-- The steps of an unmarshal program. -/
def reads : Op → Bool
  | readScalar _ _ | readNullable _ _ | readString _ | readBytes _ _ => true
  | readCount _ _ | unmarshalNested _ _ | declareLocal _ _ | newList _ _ _ | newMap _ _ _ => true
  | append _ _ _ | insert _ _ _ | assign _ _ | loop _ _ _ => true
  | _ => false

end Op

/-! ## Numbers of temporaries -/

/-- What the names of temporaries begin with. -/
def Lowering.stems : List String := ["item", "key", "val", "list", "map", "count", "i"]

/-- The names that code made from programs uses itself. -/
def ownNames : List String := ["b", "n", "size"]

/-- The name of the temporary with a number. -/
def IsTemporary (n : Nat) (name : String) : Prop :=
  ∃ stem ∈ Lowering.stems, name = stem ++ toString n

namespace IsTemporary

variable {n m : Nat} {name : String}

theorem intro {stem : String} (h : stem ∈ Lowering.stems) (n : Nat) :
    IsTemporary n (stem ++ toString n) := ⟨stem, h, rfl⟩

theorem endNumber_eq (h : IsTemporary n name) : Text.endNumber name = n := by
  obtain ⟨stem, hstem, rfl⟩ := h
  refine Text.endNumber_append ?_ n
  revert stem
  decide

theorem eq_number (h : IsTemporary n name) (h' : IsTemporary m name) : n = m := by
  rw [← h.endNumber_eq, h'.endNumber_eq]

/-- A temporary ends in a digit, which no name of the code's own does. -/
theorem not_own (h : IsTemporary n name) : name ∉ ownNames := by
  obtain ⟨stem, -, rfl⟩ := h
  have hend : ∃ c, (stem ++ toString n).toList.getLast? = some c ∧ c.isDigit = true := by
    rw [String.toList_append, Nat.toString_eq_repr, Nat.toList_repr, List.getLast?_append,
      List.getLast?_eq_some_getLast Nat.toDigits_ne_nil]
    exact ⟨_, rfl, Nat.isDigit_of_mem_toDigits (by decide) (by decide) (List.getLast_mem _)⟩
  have hown : ∀ own ∈ ownNames, (own.toList.getLast?.any Char.isDigit) = false := by decide
  obtain ⟨c, hc, hdigit⟩ := hend
  intro hmem
  have hplain := hown _ hmem
  rw [hc, Option.any_some, hdigit] at hplain
  cases hplain

end IsTemporary

/-- Names that are all different, with numbers from `n` on and below `m`. -/
structure Numbered (n m : Nat) (names : List String) : Prop where
  le : n ≤ m
  temporary : ∀ name ∈ names, ∃ k, n ≤ k ∧ k < m ∧ IsTemporary k name
  differ : names.Nodup

namespace Numbered

variable {n m l : Nat} {names more : List String}

theorem nil (n : Nat) : Numbered n n [] := ⟨Nat.le_refl n, nofun, List.nodup_nil⟩

theorem append (h : Numbered n m names) (hmore : Numbered m l more) :
    Numbered n l (names ++ more) := by
  refine ⟨Nat.le_trans h.le hmore.le, ?_, ?_⟩
  · intro name hname
    have hle := h.le
    have hle' := hmore.le
    rcases List.mem_append.1 hname with hname | hname
    · obtain ⟨k, hk, hk', htemp⟩ := h.temporary name hname
      exact ⟨k, hk, by omega, htemp⟩
    · obtain ⟨k, hk, hk', htemp⟩ := hmore.temporary name hname
      exact ⟨k, by omega, hk', htemp⟩
  · rw [List.nodup_append]
    refine ⟨h.differ, hmore.differ, ?_⟩
    rintro name hname _ hother rfl
    obtain ⟨k, _, hk, htemp⟩ := h.temporary name hname
    obtain ⟨k', hk', _, htemp'⟩ := hmore.temporary name hother
    have := htemp.eq_number htemp'
    omega

theorem one {stem : String} (h : stem ∈ Lowering.stems) (n : Nat) :
    Numbered n (n + 1) [stem ++ toString n] := by
  refine ⟨Nat.le_succ n, ?_, List.nodup_singleton _⟩
  intro name hname
  rw [List.mem_singleton] at hname
  subst hname
  exact ⟨n, Nat.le_refl n, Nat.lt_succ_self n, .intro h n⟩

theorem cons {stem : String} (h : stem ∈ Lowering.stems) (hmore : Numbered (n + 1) m more) :
    Numbered n m ((stem ++ toString n) :: more) :=
  (one h n).append hmore

/-- The order of the names does not matter. -/
theorem perm (h : Numbered n m names) (hperm : names.Perm more) : Numbered n m more := by
  refine ⟨h.le, fun name hname => ?_, hperm.nodup_iff.1 h.differ⟩
  exact h.temporary name (hperm.mem_iff.2 hname)

end Numbered

/-! ## The three passes -/

namespace Op

/-- Steps of a pass that took the numbers from `n` on and below `m`. -/
structure Lowered (allowed : Op → Bool) (fields scope : List String) (n m : Nat)
    (ops : List Op) : Prop where
  tidy : Tidy allowed fields scope ops
  numbered : Numbered n m (bound ops)

namespace Lowered

variable {allowed : Op → Bool} {fields scope : List String} {n k l m : Nat} {op : Op}
  {ops more : List Op}

theorem nil (n : Nat) : Lowered allowed fields scope n n [] := ⟨.nil, .nil n⟩

/-- A step before others: its own names come first, then those inside it, then those behind. -/
theorem cons (hkind : allowed op = true)
    (hmentions : ∀ place ∈ op.mentions, place.Seen fields scope)
    (hnames : Numbered n k (op.opens ++ op.leaves))
    (hbody : Lowered allowed fields (op.opens ++ scope) k l op.body)
    (hops : Lowered allowed fields (op.leaves ++ scope) l m ops) :
    Lowered allowed fields scope n m (op :: ops) := by
  refine ⟨.cons hkind hmentions hbody.tidy hops.tidy, ?_⟩
  rw [bound_cons]
  exact hnames.append (hbody.numbered.append hops.numbered)

theorem plain (hkind : allowed op = true)
    (hmentions : ∀ place ∈ op.mentions, place.Seen fields scope)
    (hnames : op.opens ++ op.leaves = []) (hbody : op.body = [])
    (hops : Lowered allowed fields scope n m ops) :
    Lowered allowed fields scope n m (op :: ops) := by
  obtain ⟨hopens, hleaves⟩ := List.append_eq_nil_iff.1 hnames
  refine .cons (k := n) (l := n) hkind hmentions ?_ ?_ ?_
  · rw [hnames]
    exact .nil n
  · rw [hbody]
    exact .nil n
  · rw [hleaves]
    exact hops

theorem append (h : Lowered allowed fields scope n k ops)
    (hmore : Lowered allowed fields scope k m more) :
    Lowered allowed fields scope n m (ops ++ more) := by
  refine ⟨h.tidy.append hmore.tidy, ?_⟩
  rw [bound_append]
  exact h.numbered.append hmore.numbered

variable {place : Place}

/-- A loop over elements, with a new temporary for each. -/
theorem items (hkind : ∀ item body, allowed (.forEach place item body) = true)
    (hplace : place.Seen fields scope)
    (hbody : Lowered allowed fields (("item" ++ toString n) :: scope) (n + 1) m ops) :
    Lowered allowed fields scope n m [.forEach place ("item" ++ toString n) ops] := by
  refine .cons (hkind _ _) hplace.alone ?_ hbody (.nil m)
  exact .one (by decide) n

/-- A loop over entries, with new temporaries for the key and the value. -/
theorem entries (hkind : ∀ key value body, allowed (.forEachEntry place key value body) = true)
    (hplace : place.Seen fields scope)
    (hkey : Lowered allowed fields
      (("key" ++ toString n) :: ("val" ++ toString (n + 1)) :: scope) (n + 2) k ops)
    (hvalue : Lowered allowed fields
      (("key" ++ toString n) :: ("val" ++ toString (n + 1)) :: scope) k m more) :
    Lowered allowed fields scope n m
      [.forEachEntry place ("key" ++ toString n) ("val" ++ toString (n + 1)) (ops ++ more)] := by
  refine .cons (hkind _ _ _) hplace.alone ?_ (hkey.append hvalue) (.nil m)
  exact .cons (by decide) (.one (by decide) (n + 1))

/-- A list that is made, filled by a loop and put into its place. -/
theorem filled {count : Count} {type : Descriptor} {index : Option String}
    (hindex : index ∈ [none, some ("i" ++ toString (n + 1))])
    (hcount : ∀ q ∈ count.mentions, q.Seen fields scope) (hplace : place.Seen fields scope)
    (hitem : Lowered reads fields (("item" ++ toString (n + 2)) :: ("i" ++ toString (n + 1)) ::
      ("list" ++ toString n) :: scope) (n + 3) m ops) :
    Lowered reads fields scope n m
      [.newList ("list" ++ toString n) type count,
        .loop count ("i" ++ toString (n + 1))
          (.declareLocal ("item" ++ toString (n + 2)) type :: ops ++
            [.append ("list" ++ toString n) ("item" ++ toString (n + 2)) index]),
        .assign place ("list" ++ toString n)] := by
  have happend : Lowered reads fields (("item" ++ toString (n + 2)) ::
      ("i" ++ toString (n + 1)) :: ("list" ++ toString n) :: scope) m m
      [.append ("list" ++ toString n) ("item" ++ toString (n + 2)) index] := by
    refine .plain rfl ?_ rfl rfl (.nil m)
    rcases List.mem_pair.1 hindex with rfl | rfl <;>
      simp [mentions, Place.Seen]
  have hbody : Lowered reads fields (("i" ++ toString (n + 1)) :: ("list" ++ toString n) :: scope)
      (n + 2) m (.declareLocal ("item" ++ toString (n + 2)) type :: ops ++
        [.append ("list" ++ toString n) ("item" ++ toString (n + 2)) index]) :=
    .cons rfl nofun (.one (by decide) (n + 2)) (.nil (n + 3)) (hitem.append happend)
  have hassign : Lowered reads fields (("list" ++ toString n) :: scope) m m
      [.assign place ("list" ++ toString n)] := by
    refine .plain rfl ?_ rfl rfl (.nil m)
    exact List.forall_mem_cons.2
      ⟨hplace.mono (List.subset_cons_self _ _), List.forall_mem_singleton.2 (List.mem_cons_self ..)⟩
  refine .cons rfl hcount (.one (by decide) n) (.nil (n + 1)) (.cons rfl ?_ ?_ hbody hassign)
  · exact fun q hq => (hcount q hq).mono (List.subset_cons_self _ _)
  · exact .one (by decide) (n + 1)

/-- The body of a loop that reads entries. The value is declared after the key is read, but has
the number next to that of the key. -/
theorem entryBody {map : String} {keyType valueType : Descriptor} (hmap : map ∈ scope)
    (hkey : Lowered reads fields (("key" ++ toString n) :: scope) (n + 2) k ops)
    (hvalue : Lowered reads fields
      (("val" ++ toString (n + 1)) :: ("key" ++ toString n) :: scope) k m more) :
    Lowered reads fields scope n m
      (.declareLocal ("key" ++ toString n) keyType :: ops ++
        .declareLocal ("val" ++ toString (n + 1)) valueType :: more ++
          [.insert map ("key" ++ toString n) ("val" ++ toString (n + 1))]) := by
  have hinsert : Tidy reads fields (("val" ++ toString (n + 1)) :: ("key" ++ toString n) :: scope)
      [.insert map ("key" ++ toString n) ("val" ++ toString (n + 1))] := by
    refine .cons rfl ?_ .nil .nil
    simp [mentions, Place.Seen, hmap]
  rw [List.append_assoc]
  constructor
  · refine .cons rfl nofun .nil (hkey.tidy.append ?_)
    exact .cons rfl nofun .nil (hvalue.tidy.append hinsert)
  · have hnames : Numbered n m (("key" ++ toString n) :: ("val" ++ toString (n + 1)) ::
        (bound ops ++ bound more)) :=
      .cons (by decide) (.cons (by decide) (hkey.numbered.append hvalue.numbered))
    refine hnames.perm ?_
    simp only [List.cons_append, bound_cons, bound_append, opens, leaves, body, bound_nil,
      List.nil_append, List.append_nil]
    exact (List.perm_middle.symm).cons _

end Lowered

end Op

namespace Shape

open Op

variable {fields scope : List String} {place : Place}

theorem lowered_sizeSteps (s : Shape) (hplace : place.Seen fields scope) (n : Nat) :
    Lowered measures fields scope n ((s.sizeSteps place).run n).2
      ((s.sizeSteps place).run n).1 := by
  induction s generalizing place scope n with
  | fixed | fixedBytes => exact .plain rfl nofun rfl rfl (.nil n)
  | embedded => exact .plain rfl hplace.alone rfl rfl (.nil n)
  | nullable | string | dynamicBytes =>
    exact .plain rfl nofun rfl rfl (.plain rfl hplace.alone rfl rfl (.nil n))
  | fixedArray len type elem ih =>
    cases hwidth : (fixedArray len type elem).layout.staticWidth with
    | some w =>
      rw [run_sizeSteps_whole hwidth]
      exact .plain rfl nofun rfl rfl (.nil n)
    | none =>
      rw [run_sizeSteps_fixedItems hwidth]
      exact .items (fun _ _ => rfl) hplace (ih (List.mem_cons_self ..) (n + 1))
  | dynamicArray type elem ih =>
    cases hwidth : elem.layout.staticWidth with
    | some w =>
      rw [run_sizeSteps_counted hwidth]
      exact .plain rfl nofun rfl rfl (.plain rfl hplace.alone rfl rfl (.nil n))
    | none =>
      rw [run_sizeSteps_items hwidth]
      refine .plain rfl nofun rfl rfl ?_
      exact .items (fun _ _ => rfl) hplace (ih (List.mem_cons_self ..) (n + 1))
  | map keyType valueType key value ihk ihv =>
    rcases Layout.staticWidth_cases key.layout value.layout with ⟨k, v, hk, hv⟩ | hnone
    · rw [run_sizeSteps_countedEntries hk hv]
      exact .plain rfl nofun rfl rfl (.plain rfl hplace.alone rfl rfl (.nil n))
    · rw [run_sizeSteps_entries hnone]
      refine .plain rfl nofun rfl rfl ?_
      exact .entries (fun _ _ _ => rfl) hplace (ihk (List.mem_cons_self ..) (n + 2))
        (ihv (List.mem_cons_of_mem _ (List.mem_cons_self ..)) _)

theorem lowered_marshalOps (s : Shape) (hplace : place.Seen fields scope) (n : Nat) :
    Lowered writes fields scope n ((s.marshalOps place).run n).2
      ((s.marshalOps place).run n).1 := by
  induction s generalizing place scope n with
  | fixed | nullable | string | fixedBytes | dynamicBytes | embedded =>
    exact .plain rfl hplace.alone rfl rfl (.nil n)
  | fixedArray len type elem ih | dynamicArray type elem ih =>
    refine .plain rfl hplace.alone rfl rfl ?_
    exact .items (fun _ _ => rfl) hplace (ih (List.mem_cons_self ..) (n + 1))
  | map keyType valueType key value ihk ihv =>
    refine .plain rfl hplace.alone rfl rfl ?_
    exact .entries (fun _ _ _ => rfl) hplace (ihk (List.mem_cons_self ..) (n + 2))
      (ihv (List.mem_cons_of_mem _ (List.mem_cons_self ..)) _)

theorem lowered_unmarshalOps (widths : MinWidths) (s : Shape) (hplace : place.Seen fields scope)
    (n : Nat) :
    Lowered reads fields scope n ((s.unmarshalOps widths place).run n).2
      ((s.unmarshalOps widths place).run n).1 := by
  induction s generalizing place scope n with
  | fixed | nullable | string | fixedBytes | dynamicBytes | embedded =>
    exact .plain rfl hplace.alone rfl rfl (.nil n)
  | fixedArray len type elem ih =>
    exact .filled (by simp) nofun hplace (ih (List.mem_cons_self ..) (n + 3))
  | dynamicArray type elem ih =>
    refine .cons rfl nofun (.one (by decide) n) (.nil (n + 1)) ?_
    refine .filled (by simp) ?_ (hplace.mono (List.subset_cons_self _ _))
      (ih (List.mem_cons_self ..) (n + 4))
    exact List.forall_mem_singleton.2 (List.mem_cons_self ..)
  | map keyType valueType key value ihk ihv =>
    refine .cons rfl nofun (.one (by decide) n) (.nil (n + 1)) ?_
    refine .cons rfl nofun (.one (by decide) (n + 1)) (.nil (n + 2)) ?_
    refine .cons rfl ?_ (.one (by decide) (n + 2))
      (.entryBody (List.mem_cons_of_mem _ (List.mem_cons_self ..))
        (ihk (List.mem_cons_self ..) (n + 5)) (ihv (List.mem_cons_self ..) _))
      (.plain rfl ?_ rfl rfl (.nil _))
    · exact List.forall_mem_singleton.2 (List.mem_cons_of_mem _ (List.mem_cons_self ..))
    · refine List.forall_mem_cons.2 ⟨hplace.mono ?_, ?_⟩
      · exact List.subset_cons_of_subset _ (List.subset_cons_self _ _)
      · exact List.forall_mem_singleton.2 (List.mem_cons_self ..)

end Shape

/-! ## Code -/

/-- A remark in place of a step that does not belong into a program. -/
def Code.IsRemark (c : Code) : Prop := ∃ program op, c = Native.unexpected program op

/-- A text with something other than a slash at its end, as a remark never has. -/
def Text.EndsPlain (text : String) : Prop := ∃ c, text.toList.getLast? = some c ∧ c ≠ '/'

theorem Text.EndsPlain.after {stop : String} (h : EndsPlain stop) (start : String) :
    EndsPlain (start ++ stop) := by
  obtain ⟨c, hc, hne⟩ := h
  refine ⟨c, ?_, hne⟩
  rw [String.toList_append, List.getLast?_append, hc]
  rfl

theorem Text.endsPlain_of_semicolon {text : String} (h : text.toList.getLast? = some ';') :
    EndsPlain text := ⟨';', h, by decide⟩

namespace Code

theorem not_isRemark_line {text : String} (h : Text.EndsPlain text) :
    ¬ (Code.line text).IsRemark := by
  rintro ⟨program, op, heq⟩
  obtain ⟨c, hc, hne⟩ := h
  injection heq with htext
  rw [htext, String.toList_append, List.getLast?_append] at hc
  exact hne (Option.some.inj hc).symm

theorem not_isRemark_braces (header : String) (body : List Code) :
    ¬ (Code.braces header body).IsRemark := by
  rintro ⟨program, op, heq⟩
  cases heq

/-- A line that ends in a semicolon. -/
theorem not_isRemark_statement (start : String) {stop : String}
    (h : stop.toList.getLast? = some ';') : ¬ (Code.line (start ++ stop)).IsRemark :=
  not_isRemark_line ((Text.endsPlain_of_semicolon h).after start)

/-- A line whose last part was put together, and ends in a semicolon. -/
theorem not_isRemark_joined (start middle : String) {stop : String}
    (h : stop.toList.getLast? = some ';') :
    ¬ (Code.line (start ++ (middle ++ stop))).IsRemark :=
  not_isRemark_line (((Text.endsPlain_of_semicolon h).after middle).after start)

end Code

open Code

namespace Native

theorem sizeTerm_not_remark (term : SizeTerm) : ¬ (sizeTerm term).IsRemark := by
  cases term with
  | optional => exact not_isRemark_braces _ _
  | const | utf8Len | byteLen | nested => exact not_isRemark_statement _ rfl
  | countTimes => exact not_isRemark_joined _ _ rfl

theorem sizeOp_not_remark {op : Op} (h : op.measures = true) : ¬ (sizeOp op).IsRemark := by
  cases op with
  | addSize term => exact sizeTerm_not_remark term
  | forEach | forEachEntry => exact not_isRemark_braces _ _
  | _ => cases h

theorem marshalOp_not_remark {op : Op} (h : op.writes = true) : ¬ (marshalOp op).IsRemark := by
  cases op with
  | writeScalar | writeNullable | writeString | writeCount | marshalNested =>
    exact not_isRemark_statement _ rfl
  | writeBytes value len =>
    cases len with
    | none => exact not_isRemark_statement _ rfl
    | some len => exact not_isRemark_joined _ _ rfl
  | checkLen => exact not_isRemark_joined _ _ rfl
  | forEach | forEachEntry => exact not_isRemark_braces _ _
  | _ => cases h

theorem unmarshalOp_not_remark {op : Op} (h : op.reads = true) :
    ∀ c ∈ unmarshalOp op, ¬ c.IsRemark := by
  cases op with
  | readScalar | readNullable | readString | readCount | declareLocal | newMap | append | insert =>
    exact List.forall_mem_singleton.2 (not_isRemark_statement _ rfl)
  | assign => exact List.forall_mem_singleton.2 (not_isRemark_joined _ _ rfl)
  | readBytes target len =>
    cases len with
    | none => exact List.forall_mem_singleton.2 (not_isRemark_statement _ rfl)
    | some len => exact List.forall_mem_singleton.2 (not_isRemark_joined _ _ rfl)
  | unmarshalNested =>
    exact List.forall_mem_cons.2 ⟨not_isRemark_statement _ rfl,
      List.forall_mem_singleton.2 (not_isRemark_statement _ rfl)⟩
  | newList var elem len =>
    cases len with
    | fixed => exact List.forall_mem_singleton.2 (not_isRemark_joined _ _ rfl)
    | var => exact List.forall_mem_singleton.2 (not_isRemark_statement _ rfl)
  | loop => exact List.forall_mem_singleton.2 (not_isRemark_braces _ _)
  | _ => cases h

end Native

namespace Managed

theorem sizeTerm_not_remark (term : SizeTerm) : ¬ (sizeTerm term).IsRemark := by
  cases term with
  | optional => exact not_isRemark_braces _ _
  | const | utf8Len | byteLen | nested => exact not_isRemark_statement _ rfl
  | countTimes => exact not_isRemark_joined _ _ rfl

theorem sizeOp_not_remark {op : Op} (h : op.measures = true) : ¬ (sizeOp op).IsRemark := by
  cases op with
  | addSize term => exact sizeTerm_not_remark term
  | forEach | forEachEntry => exact not_isRemark_braces _ _
  | _ => cases h

theorem op_not_remark (o : Op) : ∀ c ∈ op o, ¬ c.IsRemark := by
  cases o with
  | addSize term => exact List.forall_mem_singleton.2 (sizeTerm_not_remark term)
  | writeScalar | writeString | writeCount | marshalNested | readScalar | readString | readCount
  | declareLocal | newMap | insert =>
    exact List.forall_mem_singleton.2 (not_isRemark_statement _ rfl)
  | assign => exact List.forall_mem_singleton.2 (not_isRemark_joined _ _ rfl)
  | writeNullable | readNullable =>
    exact List.forall_mem_cons.2 ⟨not_isRemark_braces _ _,
      List.forall_mem_singleton.2 (not_isRemark_braces _ _)⟩
  | writeBytes place len | readBytes place len =>
    cases len with
    | none => exact List.forall_mem_singleton.2 (not_isRemark_statement _ rfl)
    | some len => exact List.forall_mem_singleton.2 (not_isRemark_joined _ _ rfl)
  | unmarshalNested =>
    exact List.forall_mem_cons.2 ⟨not_isRemark_statement _ rfl,
      List.forall_mem_singleton.2 (not_isRemark_statement _ rfl)⟩
  | newList var elem len =>
    cases len <;> exact List.forall_mem_singleton.2 (not_isRemark_statement _ rfl)
  | append list item index =>
    cases index <;> exact List.forall_mem_singleton.2 (not_isRemark_statement _ rfl)
  | checkLen | forEach | forEachEntry | loop =>
    exact List.forall_mem_singleton.2 (not_isRemark_braces _ _)

end Managed

/-! ## Programs of structs -/

namespace Op

/-- Steps of the allowed kinds, temporaries with names of their own, and nothing mentioned that
cannot be seen. -/
structure WellFormed (allowed : Op → Bool) (fields : List String) (ops : List Op) : Prop where
  kinds : ∀ op ∈ allSteps ops, allowed op = true
  differ : (bound ops).Nodup
  notOwn : ∀ name ∈ bound ops, name ∉ ownNames
  inScope : Scoped fields [] ops

theorem Lowered.wellFormed {allowed : Op → Bool} {fields : List String} {n m : Nat} {ops : List Op}
    (h : Lowered allowed fields [] n m ops) : WellFormed allowed fields ops := by
  refine ⟨h.tidy.kinds, h.numbered.differ, fun name hname => ?_, h.tidy.inScope⟩
  obtain ⟨k, _, _, htemp⟩ := h.numbered.temporary name hname
  exact htemp.not_own

/-- The program of all fields is well formed when the program of each is, from any number on. -/
theorem wellFormed_programOf {allowed : Op → Bool} {names : List String}
    {lower : Shape → Place → Lowering (List Op)}
    (h : ∀ s place n, place.Seen names [] →
      Lowered allowed names [] n ((lower s place).run n).2 ((lower s place).run n).1)
    {fields : List FieldShape} (hnames : ∀ f ∈ fields, f.name ∈ names) :
    WellFormed allowed names (programOf lower fields) := by
  suffices hall : ∀ n, ∃ m, Lowered allowed names [] n m
      ((fields.mapM fun f => lower f.shape (.field f.name)).run n).1.flatten by
    obtain ⟨m, hm⟩ := hall 0
    exact hm.wellFormed
  induction fields with
  | nil => exact fun n => ⟨n, .nil n⟩
  | cons f fields ih =>
    intro n
    obtain ⟨hname, hrest⟩ := List.forall_mem_cons.1 hnames
    have hfirst := h f.shape (.field f.name) n hname
    obtain ⟨m, hlater⟩ := ih hrest ((lower f.shape (.field f.name)).run n).2
    rw [List.mapM_cons]
    exact ⟨m, hfirst.append hlater⟩

end Op

/-- The programs of a struct with the given fields are well formed, and neither back end makes a
remark of any step. -/
structure StructProgram.WellFormed (fields : List String) (p : StructProgram) : Prop where
  size : Op.WellFormed Op.measures fields p.size
  marshal : Op.WellFormed Op.writes fields p.marshal
  unmarshal : Op.WellFormed Op.reads fields p.unmarshal
  native : (∀ op ∈ Op.allSteps p.size, ¬ (Native.sizeOp op).IsRemark) ∧
    (∀ op ∈ Op.allSteps p.marshal, ¬ (Native.marshalOp op).IsRemark) ∧
    ∀ op ∈ Op.allSteps p.unmarshal, ∀ c ∈ Native.unmarshalOp op, ¬ c.IsRemark
  managed : (∀ op ∈ Op.allSteps p.size, ¬ (Managed.sizeOp op).IsRemark) ∧
    ∀ op ∈ Op.allSteps p.marshal ++ Op.allSteps p.unmarshal, ∀ c ∈ Managed.op op, ¬ c.IsRemark

theorem StructDef.wellFormed_program {widths : MinWidths} {s : StructDef} {p : StructProgram}
    (h : s.program widths = .ok p) :
    p.typeName = s.name ∧ p.WellFormed (s.fields.map Field.name) := by
  obtain ⟨t, ht, _, rfl⟩ := shaped_of_program h
  have hnames : ∀ g ∈ t.fields, g.name ∈ s.fields.map Field.name := by
    intro g hg
    obtain ⟨f, hf, hname, _⟩ := Outcome.exists_of_forall₂ ht.fields g hg
    exact hname ▸ List.mem_map_of_mem hf
  have hsize := Op.wellFormed_programOf
    (fun s place n hplace => s.lowered_sizeSteps hplace n) hnames
  have hmarshal := Op.wellFormed_programOf
    (fun s place n hplace => s.lowered_marshalOps hplace n) hnames
  have hunmarshal := Op.wellFormed_programOf
    (fun s place n hplace => s.lowered_unmarshalOps widths hplace n) hnames
  refine ⟨ht.name_eq, hsize, hmarshal, hunmarshal, ⟨?_, ?_, ?_⟩, ?_, ?_⟩
  · exact fun op hop => Native.sizeOp_not_remark (hsize.kinds op hop)
  · exact fun op hop => Native.marshalOp_not_remark (hmarshal.kinds op hop)
  · exact fun op hop => Native.unmarshalOp_not_remark (hunmarshal.kinds op hop)
  · exact fun op hop => Managed.sizeOp_not_remark (hsize.kinds op hop)
  · exact fun op _ => Managed.op_not_remark op

/-- Every program of a document is well formed: its steps are those of its kind at every depth, so
no back end leaves a remark; its temporaries have names of their own, none that the back ends use;
and every step mentions only fields of its struct and temporaries that it can see. -/
theorem Document.programs_are_well_formed {doc : Document} {p : DocumentProgram}
    (h : doc.program = .ok p) :
    List.Forall₂ (fun (s : StructDef) (t : StructProgram) =>
      t.typeName = s.name ∧ t.WellFormed (s.fields.map Field.name)) doc.messageStructs p.types := by
  obtain ⟨types, htypes, h⟩ := Outcome.bind_eq_ok.1 h
  cases h
  exact (Outcome.mapM_eq_ok.1 htypes).imp fun _ _ => StructDef.wellFormed_program

/-- A document of one struct, with a map from short numbers to lists of strings. -/
def listMapDocument : Document :=
  ⟨"p", [⟨"S", none, [⟨"M", ⟨.map, some ⟨.array, some (.ofKind .string), none, 0, none⟩,
    some (.ofKind .uint16), 0, none⟩⟩]⟩]⟩

/-- The temporaries of the unmarshal program for a map of lists: those of the lists stand inside
the loop over the entries, and go on from the numbers outside. -/
theorem a_map_of_lists_is_well_formed :
    ∃ p, listMapDocument.program = .ok p ∧
      p.types.map (fun t => Op.bound t.unmarshal) =
        [["count0", "map1", "i2", "key3", "val4", "count5", "list6", "i7", "item8"]] ∧
      List.Forall₂ (fun (s : StructDef) (t : StructProgram) =>
        t.typeName = s.name ∧ t.WellFormed (s.fields.map Field.name))
        listMapDocument.messageStructs p.types := by
  have hprogram : ∃ p, listMapDocument.program = .ok p ∧
      p.types.map (fun t => Op.bound t.unmarshal) =
        [["count0", "map1", "i2", "key3", "val4", "count5", "list6", "i7", "item8"]] :=
    ⟨_, rfl, by decide⟩
  obtain ⟨p, hp, hbound⟩ := hprogram
  exact ⟨p, hp, hbound, Document.programs_are_well_formed hp⟩

end WireSchema
