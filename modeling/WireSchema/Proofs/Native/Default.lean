-- New values of a struct and what becomes of them when they are written. The code fills a field of
-- fixed length to that length, so a new value passes the check of its length. It fills one level
-- only: the rows of a grid are new lists, which are empty, and the check of a row's length stops.
import WireSchema.Proofs.Native.Expressible
import WireSchema.Proofs.Program.Encoder
import WireSchema.Proofs.Schema.Pointers
import WireSchema.Proofs.Wire.Fewest

namespace WireSchema

open Outcome Relation Wire

/-! ## Defaults -/

/-- The zero of a scalar. -/
def Scalar.zero : Scalar → Value
  | .bool => .bool false
  | .i8 | .i16 | .i32 | .i64 => .int 0
  | .u8 | .u16 | .u32 | .u64 => .uint 0
  | .f32 | .f64 => .float ⟨0⟩

theorem Scalar.bytes_zero (scalar : Scalar) : ∃ bs, scalar.bytes scalar.zero = .ok bs := by
  cases scalar with
  | bool | f32 | f64 => exact ⟨_, rfl⟩
  | i8 | i16 | i32 | i64 => exact ⟨_, signedBytes_eq_ok.2 ⟨0, rfl, by decide, rfl⟩⟩
  | u8 | u16 | u32 | u64 => exact ⟨_, unsignedBytes_eq_ok.2 ⟨0, rfl, by decide, rfl⟩⟩

namespace Native

/-- The default of a type, where `own` gives those of structs. Lists, maps and byte blocks are
empty, also those of a fixed length. -/
def defaultOf (own : String → Option Value) (type : Descriptor) : Option Value :=
  let ty := type.unwrapped
  match ty.kind with
  | .string => some (.string "")
  | .bytes => some (.bytes [])
  | .array => some (.array [])
  | .map => some (.map [])
  | .pointer => some .null
  | .struct => ty.name?.bind own
  | kind => (Scalar.ofKind? kind).map Scalar.zero

/-- The value of what a field of a type starts with. -/
def Initial.value (own : String → Option Value) (type : Descriptor) : Initial → Option Value
  | usual => defaultOf own type
  | elements len => (type.unwrapped.elem.bind (defaultOf own)).map fun x =>
    .array (List.replicate len.toNat x)
  | zeros len => some (.bytes (List.replicate len.toNat 0))

end Native

/-- The default of a struct, where `own` gives those of the structs in it. -/
def StructDef.default? (own : String → Option Value) (s : StructDef) : Option Value :=
  (s.fields.mapM fun f => ((Native.initial f.type).value own f.type).map (f.name, ·)).map .struct

/-- The default of a struct of a document, with structs inside each other down to the depth. -/
def Document.default? (doc : Document) : Nat → String → Option Value
  | 0, _ => none
  | depth + 1, name => (doc.find? name).bind (StructDef.default? (doc.default? depth))

/-! ## Defaults by layouts -/

/-- The outermost level of a type without outermost pointers, and the shape that it gives. -/
inductive Leveled (u : Descriptor) : Shape → Prop
  | fixed {scalar : Scalar} : Scalar.ofKind? u.kind = some scalar → Leveled u (.fixed scalar)
  | nullable {scalar : Scalar} : u.kind = .pointer → Leveled u (.nullable scalar)
  | string : u.kind = .string → Leveled u .string
  | fixedBytes : u.kind = .bytes → u.isFixed = true → Leveled u (.fixedBytes u.len)
  | dynamicBytes : u.kind = .bytes → u.isFixed = false → Leveled u .dynamicBytes
  | fixedArray {e type : Descriptor} {elem : Shape} : u.kind = .array → u.isFixed = true →
      u.elem = some e → e.shape = .ok elem → Leveled u (.fixedArray u.len type elem)
  | dynamicArray {type : Descriptor} {elem : Shape} : u.kind = .array → u.isFixed = false →
      Leveled u (.dynamicArray type elem)
  | map {keyType valueType : Descriptor} {key value : Shape} : u.kind = .map →
      Leveled u (.map keyType valueType key value)
  | embedded {type : Descriptor} {name : String} : u.kind = .struct → u.name? = some name →
      Leveled u (.embedded type name)

theorem Descriptor.leveled_of_shape {ty : Descriptor} {s : Shape} (h : ty.shape = .ok s) :
    Leveled ty.unwrapped s := by
  fun_induction shape ty generalizing s with
  | case1 =>
    cases h
    exact .string rfl
  | case2 elem key len name =>
    cases h
    split
    next hlen => exact .fixedBytes (u := ⟨.bytes, elem, key, len, name⟩) rfl hlen
    next hlen => exact .dynamicBytes rfl (eq_false_of_ne_true hlen)
  | case3 | case5 | case6 | case8 | case12 | case14 => cases h
  | case4 elem key len name _ =>
    obtain ⟨e, he, h⟩ := bind_eq_ok.1 h
    cases h
    split
    next hlen =>
      exact .fixedArray (u := ⟨.array, some elem, key, len, name⟩) rfl hlen rfl he
    next hlen => exact .dynamicArray rfl (eq_false_of_ne_true hlen)
  | case7 =>
    obtain ⟨k, _, h⟩ := bind_eq_ok.1 h
    obtain ⟨v, _, h⟩ := bind_eq_ok.1 h
    cases h
    exact .map rfl
  | case9 pointee _ _ _ scalar hkind =>
    cases h
    have hscalar : pointee.kind.isScalar = true := by
      rw [isScalar_eq, hkind]
      rfl
    rw [unwrapped, if_pos hscalar]
    exact .nullable rfl
  | case10 pointee _ _ _ hkind ih =>
    rw [unwrapped_pointer (isScalar_of_ofKind?_eq_none hkind)]
    exact ih h
  | case11 _ _ _ _ type hname =>
    cases h
    exact .embedded rfl hname
  | case13 kind elem key len name _ _ _ _ _ _ _ _ _ _ scalar hkind =>
    cases h
    cases kind <;> cases hkind <;> exact .fixed rfl

namespace Layout

/-- The default of a type by its layout. -/
def usual (own : String → Option Value) : Layout → Option Value
  | fixed scalar => some scalar.zero
  | nullable _ => some .null
  | string => some (.string "")
  | fixedBytes _ | dynamicBytes => some (.bytes [])
  | fixedArray _ _ | dynamicArray _ => some (.array [])
  | map _ _ => some (.map [])
  | embedded type => own type

/-- What a field starts with by its layout. -/
def filled (own : String → Option Value) : Layout → Option Value
  | fixedBytes len => some (.bytes (List.replicate len.toNat 0))
  | fixedArray len elem => (elem.usual own).map fun x => .array (List.replicate len.toNat x)
  | l => l.usual own

end Layout

namespace Native

variable {own : String → Option Value} {ty : Descriptor} {s : Shape}

/-- The default of a type is that of its layout. -/
theorem defaultOf_eq (h : ty.shape = .ok s) : defaultOf own ty = s.layout.usual own := by
  rw [defaultOf]
  cases ty.leveled_of_shape h with
  | fixed hkind =>
    generalize ty.unwrapped = u at hkind
    cases hu : u.kind <;> rw [hu] at hkind <;> cases hkind <;> rfl
  | embedded hkind hname => simp only [hkind, hname, Shape.layout, Layout.usual, Option.bind_some]
  | nullable hkind | string hkind | fixedBytes hkind | dynamicBytes hkind | map hkind
  | fixedArray hkind | dynamicArray hkind => simp only [hkind, Shape.layout, Layout.usual]

/-- A field starts with what its layout tells. -/
theorem value_initial (h : ty.shape = .ok s) : (initial ty).value own ty = s.layout.filled own := by
  have hdefault : defaultOf own ty = s.layout.usual own := defaultOf_eq h
  rw [initial]
  cases ty.leveled_of_shape h with
  | fixed hkind =>
    generalize ty.unwrapped = u at hkind
    cases hu : u.kind <;> rw [hu] at hkind <;> cases hkind <;> exact hdefault
  | fixedBytes hkind hfixed =>
    simp only [hkind, hfixed, if_true, Initial.value, Shape.layout, Layout.filled]
  | fixedArray hkind hfixed helem he =>
    simp only [hkind, hfixed, if_true, Initial.value, helem, Option.bind_some, defaultOf_eq he,
      Shape.layout, Layout.filled]
  | dynamicBytes hkind hfixed | dynamicArray hkind hfixed =>
    simp only [hkind, hfixed]
    exact hdefault
  | nullable hkind | string hkind | map hkind | embedded hkind =>
    simp only [hkind]
    exact hdefault

end Native

/-! ## Writing defaults -/

/-- A run that goes to its end when a condition holds, and else stops at an empty list that should
have a length. -/
structure Ends (x : Except Halt Sent) (good : Prop) : Prop where
  ends : good → ∃ sent, x = .ok sent
  stops : ¬ good → ∃ len, x = .error (.wrongLength len 0)

namespace Ends

variable {x y : Except Halt Sent} {good better : Prop}

theorem of_ok {sent : Sent} (h : x = .ok sent) (hgood : good) : Ends x good :=
  ⟨fun _ => ⟨sent, h⟩, fun hnot => absurd hgood hnot⟩

theorem congr (h : Ends x good) (hiff : good ↔ better) : Ends x better :=
  ⟨fun hgood => h.ends (hiff.2 hgood), fun hnot => h.stops fun hgood => hnot (hiff.1 hgood)⟩

/-- What is sent in two parts ends when both do. -/
theorem append (hx : Ends x good) (hy : Ends y better) :
    Ends (do return (← x) ++ (← y)) (good ∧ better) := by
  constructor
  · rintro ⟨hgood, hbetter⟩
    obtain ⟨a, rfl⟩ := hx.ends hgood
    obtain ⟨b, rfl⟩ := hy.ends hbetter
    exact ⟨a ++ b, rfl⟩
  · intro hnot
    by_cases hgood : good
    · obtain ⟨a, rfl⟩ := hx.ends hgood
      obtain ⟨len, rfl⟩ := hy.stops fun hbetter => hnot ⟨hgood, hbetter⟩
      exact ⟨len, rfl⟩
    · obtain ⟨len, rfl⟩ := hx.stops hgood
      exact ⟨len, rfl⟩

/-- What is sent item by item ends when each does. -/
theorem sendEach {α : Type} {send : α → Except Halt Sent} {P : α → Prop} {xs : List α}
    (h : ∀ x ∈ xs, Ends (send x) (P x)) : Ends (sendEach send xs) (∀ x ∈ xs, P x) := by
  induction xs with
  | nil => exact of_ok rfl nofun
  | cons x xs ih =>
    obtain ⟨hx, hxs⟩ := List.forall_mem_cons.1 h
    exact (hx.append (ih hxs)).congr List.forall_mem_cons.symm

variable {nested : OnNested} {fr : Frame} {op : Op} {ops more : List Op}

theorem sendAll_cons (hop : Ends (op.send nested fr) good)
    (hops : Ends (Op.sendAll nested fr ops) better) :
    Ends (Op.sendAll nested fr (op :: ops)) (good ∧ better) :=
  hop.append hops

theorem sendAll_one (hop : Ends (op.send nested fr) good) :
    Ends (Op.sendAll nested fr [op]) good :=
  (hop.sendAll_cons (of_ok rfl trivial)).congr (and_iff_left trivial)

theorem sendAll_append (hops : Ends (Op.sendAll nested fr ops) good)
    (hmore : Ends (Op.sendAll nested fr more) better) :
    Ends (Op.sendAll nested fr (ops ++ more)) (good ∧ better) := by
  have happend : Op.sendAll nested fr (ops ++ more) =
      (do return (← Op.sendAll nested fr ops) ++ (← Op.sendAll nested fr more)) := by
    clear hops
    induction ops with
    | nil =>
      cases hsent : Op.sendAll nested fr more with
      | error e => simp [Op.sendAll, hsent]
      | ok b => simp [Op.sendAll, hsent, pure, Except.pure]
    | cons op ops ih =>
      rw [List.cons_append, Op.sendAll, Op.sendAll, ih]
      cases op.send nested fr with
      | error e => rfl
      | ok a =>
        cases Op.sendAll nested fr ops with
        | error e => rfl
        | ok b =>
          cases Op.sendAll nested fr more with
          | error e => rfl
          | ok c => exact congrArg Except.ok (a.append_assoc b c).symm
  rw [happend]
  exact hops.append hmore

/-- The program of all fields ends when that of each does, whatever numbers their temporaries
have. -/
theorem programOf {lower : Shape → Place → Lowering (List Op)} {fields : List FieldShape}
    {P : FieldShape → Prop}
    (h : ∀ f ∈ fields, ∀ n,
      Ends (Op.sendAll nested fr ((lower f.shape (.field f.name)).run n).1) (P f)) :
    Ends (Op.sendAll nested fr (programOf lower fields)) (∀ f ∈ fields, P f) := by
  suffices hall : ∀ n, Ends (Op.sendAll nested fr
      ((fields.mapM fun f => lower f.shape (.field f.name)).run n).1.flatten)
        (∀ f ∈ fields, P f) from hall 0
  induction fields with
  | nil => exact fun n => of_ok rfl nofun
  | cons f fields ih =>
    intro n
    obtain ⟨hf, hfields⟩ := List.forall_mem_cons.1 h
    rw [List.mapM_cons]
    exact ((hf n).sendAll_append (ih hfields _)).congr List.forall_mem_cons.symm

end Ends

namespace Layout

/-- The default of a layout passes all checks, when the defaults of structs do just where `G`
holds. -/
def UsualPasses (G : String → Prop) : Layout → Prop
  | fixedArray _ _ => False
  | embedded type => G type
  | _ => True

/-- What a field starts with passes all checks. -/
def FilledPasses (G : String → Prop) : Layout → Prop
  | fixedArray _ elem => elem.UsualPasses G
  | l => l.UsualPasses G

end Layout

namespace Shape

variable {own : String → Option Value} {G : String → Prop} {nested : OnNested} {fr : Frame}
  {place : Place} {s : Shape} {x : Value}

/-- The default at a place is written to its end, unless it is a list that should have a length or a
struct that is not. -/
theorem ends_usual
    (hnested : ∀ type v, s.layout.inner? = some type → own type = some v →
      Ends (nested .marshal type v) (G type))
    (hsolid : s.layout.Solid) (hx : s.layout.usual own = some x)
    (hplace : fr.get place = .ok (s.layout, x)) (n : Nat) :
    Ends (Op.sendAll nested fr ((s.marshalOps place).run n).1) (s.layout.UsualPasses G) := by
  cases s with
  | fixed scalar =>
    cases hx
    obtain ⟨bs, hbs⟩ := scalar.bytes_zero
    have hsend : Op.send nested fr (.writeScalar scalar place) = .ok ⟨0, bs⟩ := by
      simp only [Op.send, hplace, ok_bind, Scalar.written, hbs]
      rfl
    exact .sendAll_one (.of_ok hsend trivial)
  | nullable scalar =>
    cases hx
    have hsend : Op.send nested fr (.writeNullable scalar place) = .ok ⟨0, [0]⟩ := by
      simp only [Op.send, hplace, ok_bind]
      rfl
    exact .sendAll_one (.of_ok hsend trivial)
  | string =>
    cases hx
    have hsend : Op.send nested fr (.writeString place) = .ok ⟨0, Bytes.counted []⟩ := by
      simp only [Op.send, hplace, ok_bind]
      rfl
    exact .sendAll_one (.of_ok hsend trivial)
  | fixedBytes len =>
    cases hx
    have hsend : Op.send nested fr (.writeBytes place (some len)) =
        .ok ⟨0, Bytes.block len.toNat []⟩ := by
      simp only [Op.send, hplace, ok_bind]
      rfl
    exact .sendAll_one (.of_ok hsend trivial)
  | dynamicBytes =>
    cases hx
    have hsend : Op.send nested fr (.writeBytes place none) = .ok ⟨0, Bytes.counted []⟩ := by
      simp only [Op.send, hplace, ok_bind]
      rfl
    exact .sendAll_one (.of_ok hsend trivial)
  | fixedArray len type elem =>
    cases hx
    have hne : ¬ 0 = len.toNat := fun hzero => hsolid.1 (UInt32.toNat_inj.1 hzero.symm)
    have hcheck : Op.send nested fr (.checkLen place len) = .error (.wrongLength len 0) := by
      simp only [Op.send, hplace, ok_bind, Value.count, List.length_nil, if_neg hne]
      rfl
    refine ⟨False.elim, fun _ => ⟨len, ?_⟩⟩
    change Op.sendAll nested fr (.checkLen place len :: _) = _
    rw [Op.sendAll, hcheck]
    rfl
  | dynamicArray type elem =>
    cases hx
    refine .of_ok (Op.sendAll_cons (send_writeCount hplace rfl)
      (Op.sendAll_one (?_ : _ = Except.ok Sent.nothing))) trivial
    simp only [Op.send, hplace, ok_bind]
    rfl
  | map keyType valueType key value =>
    cases hx
    refine .of_ok (Op.sendAll_cons (send_writeCount hplace rfl)
      (Op.sendAll_one (?_ : _ = Except.ok Sent.nothing))) trivial
    simp only [Op.send, hplace, ok_bind]
    rfl
  | embedded type name =>
    have hsend : Op.send nested fr (.marshalNested place) = nested .marshal name x := by
      simp only [Op.send, hplace, ok_bind]
      rfl
    refine .sendAll_one ?_
    rw [hsend]
    exact hnested name x rfl hx

/-- What a field starts with is written to its end, unless it is a list of lists that should have a
length, or holds a struct that is not. -/
theorem ends_filled
    (hnested : ∀ type v, s.layout.inner? = some type → own type = some v →
      Ends (nested .marshal type v) (G type))
    (hsolid : s.layout.Solid) (hx : s.layout.filled own = some x)
    (hplace : fr.get place = .ok (s.layout, x)) (n : Nat) :
    Ends (Op.sendAll nested fr ((s.marshalOps place).run n).1) (s.layout.FilledPasses G) := by
  cases s with
  | fixedBytes len =>
    cases hx
    have hsend : Op.send nested fr (.writeBytes place (some len)) =
        .ok ⟨0, Bytes.block len.toNat (List.replicate len.toNat 0)⟩ := by
      simp only [Op.send, hplace, ok_bind]
      rfl
    exact .sendAll_one (.of_ok hsend trivial)
  | fixedArray len type elem =>
    obtain ⟨y, hy, rfl⟩ := Option.map_eq_some_iff.1 hx
    have hcheck : Op.send nested fr (.checkLen place len) = .ok .nothing := by
      simp only [Op.send, hplace, ok_bind, Value.count, List.length_replicate, if_true]
      rfl
    refine ((Ends.of_ok hcheck trivial).sendAll_cons (.sendAll_one ?_)).congr
      (and_iff_right trivial)
    simp only [Op.send, hplace, ok_bind]
    -- There is at least one element, and all are the same.
    have hne : len.toNat ≠ 0 := fun hzero => hsolid.1 (UInt32.toNat_inj.1 hzero)
    refine (Ends.sendEach (P := fun _ => elem.layout.UsualPasses G) fun z hz => ?_).congr ?_
    · cases List.eq_of_mem_replicate hz
      exact ends_usual (s := elem) hnested hsolid.2 hy (fr.get_bind _ _) _
    · simp [hne, Layout.FilledPasses, layout]
  | _ => exact ends_usual hnested hsolid hx hplace n

end Shape

/-! ## Defaults of structs -/

namespace Layout

/-- A list of a fixed length of lists of a fixed length. -/
def isGrid : Layout → Bool
  | fixedArray _ (fixedArray _ _) => true
  | _ => false

/-- What a field starts with passes all checks when it is no grid, and the default of the struct in
it passes. -/
theorem filledPasses_iff {G : String → Prop} {l : Layout} :
    l.FilledPasses G ↔ l.isGrid = false ∧ ∀ type, l.inner? = some type → G type := by
  cases l with
  | fixedArray len elem => cases elem <;> simp [FilledPasses, UsualPasses, isGrid, inner?]
  | _ => simp [FilledPasses, UsualPasses, isGrid, inner?]

/-- A field has something to start with when the struct in it has a default. -/
theorem exists_filled {own : String → Option Value} {l : Layout}
    (h : ∀ type, l.inner? = some type → ∃ v, own type = some v) : ∃ x, l.filled own = some x := by
  cases l with
  | fixedArray len elem =>
    cases elem with
    | embedded type =>
      obtain ⟨v, hv⟩ := h type rfl
      exact ⟨_, Option.map_eq_some_iff.2 ⟨v, hv, rfl⟩⟩
    | _ => exact ⟨_, rfl⟩
  | embedded type => exact h type rfl
  | _ => exact ⟨_, rfl⟩

end Layout

namespace DocumentLayout

variable {d : DocumentLayout} {name : String}

/-- No field is a grid, in a struct and in those that are in every value of it. -/
def Gridless (d : DocumentLayout) (name : String) : Prop :=
  ∀ inner, ReflTransGen d.Embeds name inner → ∀ s, d.get? inner = some s →
    ∀ f ∈ s.fields, f.layout.isGrid = false

/-- A struct has no grids when what its fields start with passes, where the defaults of structs
without grids pass. -/
theorem gridless_iff {s : StructLayout} (hs : d.get? name = some s) :
    d.Gridless name ↔ ∀ f ∈ s.fields, f.layout.FilledPasses d.Gridless := by
  constructor
  · intro h f hf
    refine Layout.filledPasses_iff.2 ⟨h name .refl s hs f hf, fun inner hinner type htype => ?_⟩
    exact h type (.head ⟨s, hs, f, hf, hinner⟩ htype)
  · intro h inner hreach t ht f hf
    rcases ReflTransGen.cases_head hreach with rfl | ⟨first, ⟨s', hs', g, hg, hinner⟩, hrest⟩
    · cases hs.symm.trans ht
      exact (Layout.filledPasses_iff.1 (h f hf)).1
    · cases hs.symm.trans hs'
      exact (Layout.filledPasses_iff.1 (h g hg)).2 first hinner inner hrest t ht f hf

/-- In a chain of structs that embed each other none is met again, and there are only so many. -/
theorem grounded_of_acyclic (h : d.Acyclic)
    (hdeclared : ∀ inner, ReflTransGen d.Embeds name inner → ∃ s, d.get? inner = some s) :
    d.Grounded d.structs.length name := by
  refine ⟨hdeclared, fun chain hchain => ?_⟩
  have hpairs : List.Pairwise (TransGen d.Embeds) (name :: chain) :=
    (hchain.imp fun _ _ => TransGen.single).pairwise
  have hdiffer : (name :: chain).Nodup := by
    refine hpairs.imp ?_
    rintro a _ hself rfl
    exact h a hself
  have hnames : name :: chain ⊆ d.structs.map StructLayout.name := by
    intro inner hinner
    refine exists_get?.1 (hdeclared inner ?_)
    rcases List.mem_cons.1 hinner with rfl | hmem
    · exact .refl
    · exact ((List.pairwise_cons.1 hpairs).1 inner hmem).to_reflTransGen
  have hlen := (List.subperm_of_subset hdiffer hnames).length_le
  rwa [List.length_map] at hlen

end DocumentLayout

/-- A value of the struct, with what each field is given. -/
def StructShape.valueOf (t : StructShape) (given : FieldShape → Value) : Value :=
  .struct (t.fields.map fun g => (g.name, given g))

theorem StructShape.Sound.field?_valueOf {t : StructShape} (ht : t.Sound)
    (given : FieldShape → Value) {g : FieldShape} (hg : g ∈ t.fields) :
    (t.valueOf given).field? g.name = some (given g) := by
  refine lookup_of_nodup ?_ (List.mem_map_of_mem (f := fun g => (g.name, given g)) hg)
  rw [List.map_map]
  exact ht.differ

/-- A value with what each field starts with is written to its end when each of these is. -/
theorem StructShape.Sound.ends_valueOf {t : StructShape} (ht : t.Sound)
    {own : String → Option Value} {G : String → Prop} {nested : OnNested}
    (hnested : ∀ g ∈ t.fields, ∀ type v, g.shape.layout.inner? = some type → own type = some v →
      Ends (nested .marshal type v) (G type))
    (hsolid : ∀ g ∈ t.fields, g.shape.layout.Solid) {given : FieldShape → Value}
    (hgiven : ∀ g ∈ t.fields, g.shape.layout.filled own = some (given g)) (widths : MinWidths) :
    Ends (Op.sendAll nested
        ⟨(t.program widths).fields.map fun f => (f.name, f.layout), t.valueOf given, []⟩
        (t.program widths).marshal)
      (∀ g ∈ t.fields, g.shape.layout.FilledPasses G) := by
  refine Ends.programOf (P := fun g => g.shape.layout.FilledPasses G) fun g hg n => ?_
  exact Shape.ends_filled (hnested g hg) (hsolid g hg) (hgiven g hg)
    (ht.get_field hg (ht.field?_valueOf given hg)) n

namespace StructDef

variable {own : String → Option Value} {s : StructDef} {t : StructShape}

/-- The default of a struct has what each field starts with. -/
theorem Shaped.default?_eq (h : s.Shaped t) {given : FieldShape → Value}
    (hgiven : ∀ g ∈ t.fields, g.shape.layout.filled own = some (given g)) :
    s.default? own = some (t.valueOf given) := by
  have hfields : (s.fields.mapM fun f =>
      ((Native.initial f.type).value own f.type).map (f.name, ·)) =
      some (t.fields.map fun g => (g.name, given g)) := by
    rw [mapM_eq_some, List.forall₂_map_right_iff]
    refine (((List.forall₂_and_left _ _).2 ⟨hgiven, h.fields.flip⟩).imp ?_).flip
    rintro g f ⟨hvalue, hname, hshape⟩
    rw [flip, Native.value_initial hshape, hvalue, hname]
    rfl
  rw [default?, hfields]
  rfl

/-- The structs of a document and their shapes are found under the same names. -/
theorem find?_of_shaped {structs : List StructDef} {shapes : List StructShape}
    (h : List.Forall₂ Shaped structs shapes) {name : String}
    (ht : shapes.find? (·.name == name) = some t) :
    ∃ s, structs.find? (·.name == name) = some s ∧ s.Shaped t := by
  induction h with
  | nil => cases ht
  | @cons s u structs shapes hsu _ ih =>
    rw [List.find?_cons] at ht ⊢
    rw [hsu.name_eq] at ht
    cases hname : s.name == name with
    | true =>
      rw [hname] at ht
      cases ht
      exact ⟨s, rfl, hsu⟩
    | false =>
      rw [hname] at ht
      exact ih ht

end StructDef

namespace Document

theorem find?_eq (doc : Document) (name : String) :
    doc.find? name = doc.messageStructs.find? (·.name == name) := by
  rw [find?, messageStructs, List.find?_filter]
  congr 1
  funext s
  rw [Bool.and_comm, Bool.decide_and, Bool.decide_eq_true, Bool.decide_eq_true]

/-- A struct has a default when those in every value of it are declared, and its marshal program
writes the default to its end just where no field is a grid. -/
theorem ends_default {doc : Document} {shapes : List StructShape}
    (hshapes : List.Forall₂ StructDef.Shaped doc.messageStructs shapes)
    (hsound : ∀ t ∈ shapes, t.Sound) {room : Nat} {name : String}
    (h : (doc.layoutOf shapes).Grounded room name) :
    ∃ v, doc.default? room name = some v ∧ ∀ depth, room ≤ depth →
      Ends ((doc.programsOf shapes).send depth .marshal name v)
        ((doc.layoutOf shapes).Gridless name) := by
  induction room generalizing name with
  | zero =>
    have hlen := h.shallow [] (.singleton name)
    cases hlen
  | succ room ih =>
    obtain ⟨l, hl⟩ := h.declared name .refl
    have hget := hl
    rw [doc.get?_layoutOf] at hget
    obtain ⟨t, ht, rfl⟩ := Option.map_eq_some_iff.1 hget
    obtain ⟨s, hs, hst⟩ := StructDef.find?_of_shaped hshapes ht
    have hmem := List.mem_of_find?_eq_some ht
    have hinner : ∀ g ∈ t.fields, ∀ type, g.shape.layout.inner? = some type →
        (doc.layoutOf shapes).Grounded room type := fun g hg type htype =>
      h.inner ⟨_, hl, g.layout, List.mem_map_of_mem hg, htype⟩
    have hfilled : ∀ g ∈ t.fields, ∃ x, g.shape.layout.filled (doc.default? room) = some x := by
      intro g hg
      refine Layout.exists_filled fun type htype => ?_
      obtain ⟨v, hv, -⟩ := ih (hinner g hg type htype)
      exact ⟨v, hv⟩
    have : Nonempty Value := ⟨.null⟩
    choose! given hgiven using hfilled
    refine ⟨t.valueOf given, ?_, fun depth hdepth => ?_⟩
    · rw [default?, doc.find?_eq, hs]
      exact hst.default?_eq hgiven
    · obtain ⟨depth, rfl⟩ := Nat.exists_eq_add_of_le' hdepth
      rw [Nat.add_succ, DocumentProgram.send, doc.get?_programsOf, ht, Option.map_some]
      have hsolid : ∀ g ∈ t.fields, g.shape.layout.Solid := fun g hg =>
        StructDef.solid_of_layout hst.layout _ (List.mem_map_of_mem hg)
      have hnested : ∀ g ∈ t.fields, ∀ type v, g.shape.layout.inner? = some type →
          doc.default? room type = some v →
          Ends ((doc.programsOf shapes).send (depth + room) .marshal type v)
            ((doc.layoutOf shapes).Gridless type) := by
        intro g hg type v htype hv
        obtain ⟨w, hw, hends⟩ := ih (hinner g hg type htype)
        cases hv.symm.trans hw
        exact hends (depth + room) (Nat.le_add_left _ _)
      refine ((hsound t hmem).ends_valueOf hnested hsolid hgiven _).congr ?_
      rw [DocumentLayout.gridless_iff hl, StructShape.layout, List.forall_mem_map]
      rfl

/-- A new value can be written just where no field is a grid. In a checked document where no struct
embeds itself, each struct has a default if those in every value of it are declared. If the document
is lowered, the marshal program of the struct runs on the default to its end if neither it nor they
have a field that is a list of a fixed length of lists of a fixed length. Else the program stops at
the length of an empty list. -/
theorem defaults_marshal_iff_gridless {doc : Document} (hcheck : doc.check = .ok ())
    {d : DocumentLayout} (hlayout : doc.layout = .ok d) (hacyclic : d.Acyclic) :
    ∀ name, (∀ inner, ReflTransGen d.Embeds name inner → ∃ s, d.get? inner = some s) →
      ∃ v, doc.default? d.structs.length name = some v ∧ ∀ p, doc.program = .ok p →
        ∀ depth, d.structs.length ≤ depth →
          ((∃ sent, p.send depth .marshal name v = .ok sent) ↔ d.Gridless name) ∧
          (¬ d.Gridless name →
            ∃ len, p.send depth .marshal name v = .error (.wrongLength len 0)) := by
  intro name hdeclared
  obtain ⟨shapes, hshapes, hsound⟩ := shapes_of_check hcheck
  cases hlayout.symm.trans (layout_of_shaped hshapes)
  have hgrounded := DocumentLayout.grounded_of_acyclic hacyclic hdeclared
  obtain ⟨v, hv, hends⟩ := ends_default hshapes hsound hgrounded
  refine ⟨v, hv, fun p hp depth hdepth => ?_⟩
  obtain ⟨-, rfl⟩ := (program_eq_ok_iff hshapes).1 hp
  refine ⟨⟨fun hsent => ?_, (hends depth hdepth).ends⟩, (hends depth hdepth).stops⟩
  by_contra hgrid
  obtain ⟨sent, hsent⟩ := hsent
  obtain ⟨len, hstop⟩ := (hends depth hdepth).stops hgrid
  cases hsent.symm.trans hstop

/-- A line with two ends, each a new point, and no stops. -/
def newLine : Value :=
  .struct [("Ends", .array [.struct [("At", .uint 0)], .struct [("At", .uint 0)]]),
    ("Stops", .array [])]

/-- A new line is written, with all its ends. -/
theorem a_new_line_is_written :
    check ⟨"p", [lineStruct, pointStruct]⟩ = .ok () ∧
      default? ⟨"p", [lineStruct, pointStruct]⟩ 2 "Line" = some newLine ∧
      ∃ p sent, program ⟨"p", [lineStruct, pointStruct]⟩ = .ok p ∧
        p.send 2 .marshal "Line" newLine = .ok sent := by
  have hcheck : check ⟨"p", [lineStruct, pointStruct]⟩ = .ok () := by rfl
  have hlayout : layout ⟨"p", [lineStruct, pointStruct]⟩ = .ok lineLayout := by rfl
  have hdefault : default? ⟨"p", [lineStruct, pointStruct]⟩ 2 "Line" = some newLine := by rfl
  have hgridless : lineLayout.Gridless "Line" := by
    intro inner _ s hs f hf
    have hall : ∀ s ∈ lineLayout.structs, ∀ f ∈ s.fields, f.layout.isGrid = false := by decide
    exact hall s (List.mem_of_find?_eq_some hs) f hf
  obtain ⟨p, hp⟩ : ∃ p, program ⟨"p", [lineStruct, pointStruct]⟩ = .ok p := ⟨_, rfl⟩
  obtain ⟨v, hv, hsend⟩ := defaults_marshal_iff_gridless hcheck hlayout acyclic_lineLayout "Line"
    DocumentLayout.grounded_lineLayout.declared
  cases hdefault.symm.trans hv
  obtain ⟨sent, hsent⟩ := (hsend p hp 2 (Nat.le_refl 2)).1.2 hgridless
  exact ⟨hcheck, hdefault, p, sent, hp, hsent⟩

/-- A document of a board with two rows of three cells. -/
def boardDocument : Document :=
  ⟨"p", [⟨"Board", none,
    [⟨"Cells", ⟨.array, some ⟨.array, some (.ofKind .uint8), none, 3, none⟩, none, 2, none⟩⟩]⟩]⟩

/-- The layouts of the document with a board. -/
def boardLayout : DocumentLayout :=
  ⟨1, "p", .little, [⟨"Board", [⟨"Cells", .fixedArray 2 (.fixedArray 3 (.fixed .u8))⟩]⟩]⟩

/-- A new board is not written, though the document passes, has Rust code and embeds nothing: its
two rows are there, but they are empty. -/
theorem a_new_board_is_not_written :
    boardDocument.check = .ok () ∧ (∃ text, boardDocument.generate (.native none) = .ok text) ∧
      boardDocument.layout = .ok boardLayout ∧ boardLayout.Acyclic ∧
      boardDocument.default? 1 "Board" =
        some (.struct [("Cells", .array [.array [], .array []])]) ∧
      ∃ p, boardDocument.program = .ok p ∧
        p.send 1 .marshal "Board" (.struct [("Cells", .array [.array [], .array []])]) =
          .error (.wrongLength 3 0) := by
  have hcheck : boardDocument.check = .ok () := by rfl
  refine ⟨hcheck, ⟨_, generate_of_check rfl rfl⟩, rfl, ?_, rfl, _, rfl, rfl⟩
  intro name hself
  obtain ⟨_, ⟨s, hs, f, hf, hinner⟩, _⟩ := TransGen.head'_iff.1 hself
  cases List.mem_singleton.1 (List.mem_of_find?_eq_some hs)
  cases List.mem_singleton.1 hf
  cases hinner

end Document

end WireSchema
