-- Names in programs: which temporaries a step binds, which places it mentions, and where a
-- temporary can be seen. A loop binds its temporaries for its body, any other step for the steps
-- behind it in the same body.
import WireSchema.Program.Basic
import WireSchema.Proofs.Program.Receiving

namespace WireSchema

/-! ## Steps at every depth -/

namespace Op

/-- The steps inside a loop. -/
def body : Op → List Op
  | forEach _ _ body | forEachEntry _ _ _ body | loop _ _ body => body
  | _ => []

mutual

/-- A step and the steps inside it, at every depth. -/
def steps : Op → List Op
  | forEach source item body => forEach source item body :: allSteps body
  | forEachEntry source key value body => forEachEntry source key value body :: allSteps body
  | loop count index body => loop count index body :: allSteps body
  | op => [op]

/-- The steps of a program at every depth, in program order. -/
def allSteps : List Op → List Op
  | [] => []
  | op :: ops => op.steps ++ allSteps ops

end

theorem steps_eq (op : Op) : op.steps = op :: allSteps op.body := by
  cases op <;> simp [steps, body, allSteps]

@[simp]
theorem allSteps_nil : allSteps [] = [] := rfl

theorem allSteps_cons (op : Op) (ops : List Op) :
    allSteps (op :: ops) = op :: (allSteps op.body ++ allSteps ops) := by
  rw [allSteps, steps_eq, List.cons_append]

@[simp]
theorem allSteps_append (ops more : List Op) :
    allSteps (ops ++ more) = allSteps ops ++ allSteps more := by
  induction ops with
  | nil => rfl
  | cons op ops ih => rw [List.cons_append, allSteps, allSteps, ih, List.append_assoc]

/-! ## Temporaries -/

/-- The temporaries that a loop binds for its body. -/
def opens : Op → List String
  | forEach _ item _ => [item]
  | forEachEntry _ key value _ => [key, value]
  | loop _ index _ => [index]
  | _ => []

/-- The temporaries that a step binds for the steps behind it. -/
def leaves : Op → List String
  | readCount var _ | declareLocal var _ | newList var _ _ | newMap var _ _ => [var]
  | _ => []

/-- The temporaries that are bound in a program, at every depth. -/
def bound (ops : List Op) : List String := (allSteps ops).flatMap fun op => op.opens ++ op.leaves

@[simp]
theorem bound_nil : bound [] = [] := rfl

theorem bound_cons (op : Op) (ops : List Op) :
    bound (op :: ops) = op.opens ++ op.leaves ++ (bound op.body ++ bound ops) := by
  simp [bound, allSteps_cons]

@[simp]
theorem bound_append (ops more : List Op) : bound (ops ++ more) = bound ops ++ bound more := by
  simp [bound]

end Op

/-! ## Places -/

def Count.mentions : Count → List Place
  | fixed _ => []
  | var name => [.temp name]

def SizeTerm.mentions : SizeTerm → List Place
  | const _ => []
  | utf8Len place | byteLen place | countTimes place _ | optional place _ | nested place => [place]

/-- The places that a step itself mentions, but for the temporaries that it binds. -/
def Op.mentions : Op → List Place
  | addSize term => term.mentions
  | writeScalar _ place | writeNullable _ place | writeString place | writeBytes place _ => [place]
  | writeCount place | checkLen place _ | marshalNested place => [place]
  | readScalar _ place | readNullable _ place | readString place | readBytes place _ => [place]
  | unmarshalNested place _ => [place]
  | readCount _ _ | declareLocal _ _ | newMap _ _ _ => []
  | newList _ _ count => count.mentions
  | append list item index => .temp list :: .temp item :: index.toList.map .temp
  | insert map key value => [.temp map, .temp key, .temp value]
  | assign place var => [place, .temp var]
  | forEach place _ _ | forEachEntry place _ _ _ => [place]
  | loop count _ _ => count.mentions

/-- A place that can be seen: a field of the struct, or a temporary in scope. -/
def Place.Seen (fields scope : List String) : Place → Prop
  | field name => name ∈ fields
  | temp name => name ∈ scope

theorem Place.Seen.mono {fields scope wider : List String} {place : Place}
    (h : place.Seen fields scope) (hwider : scope ⊆ wider) : place.Seen fields wider := by
  cases place with
  | field name => exact h
  | temp name => exact hwider h

theorem Place.Seen.alone {fields scope : List String} {place : Place}
    (h : place.Seen fields scope) : ∀ q ∈ [place], q.Seen fields scope :=
  List.forall_mem_singleton.2 h

namespace Op

/-- Every place that a step mentions can be seen there. -/
inductive Scoped (fields : List String) : List String → List Op → Prop
  | nil {scope : List String} : Scoped fields scope []
  | cons {scope : List String} {op : Op} {ops : List Op} :
      (∀ place ∈ op.mentions, place.Seen fields scope) →
      Scoped fields (op.opens ++ scope) op.body → Scoped fields (op.leaves ++ scope) ops →
      Scoped fields scope (op :: ops)

variable {fields scope wider : List String} {allowed : Op → Bool} {ops more : List Op}

theorem Scoped.mono (h : Scoped fields scope ops) (hwider : scope ⊆ wider) :
    Scoped fields wider ops := by
  induction h generalizing wider with
  | nil => exact .nil
  | @cons scope op ops hmentions _ _ ihbody ihops =>
    refine .cons (fun place hplace => ?_) (ihbody ?_) (ihops ?_)
    · exact (hmentions place hplace).mono hwider
    · exact List.append_subset.2
        ⟨List.subset_append_left _ _, List.Subset.trans hwider (List.subset_append_right _ _)⟩
    · exact List.append_subset.2
        ⟨List.subset_append_left _ _, List.Subset.trans hwider (List.subset_append_right _ _)⟩

theorem Scoped.append (h : Scoped fields scope ops) (hmore : Scoped fields scope more) :
    Scoped fields scope (ops ++ more) := by
  induction h with
  | nil => exact hmore
  | @cons scope op ops hmentions hbody _ _ ihops =>
    refine .cons hmentions hbody (ihops (hmore.mono ?_))
    exact List.subset_append_right op.leaves scope

/-- The steps at every depth are of the allowed kinds, and see the places that they mention. -/
structure Tidy (allowed : Op → Bool) (fields scope : List String) (ops : List Op) : Prop where
  kinds : ∀ op ∈ allSteps ops, allowed op = true
  inScope : Scoped fields scope ops

namespace Tidy

theorem nil : Tidy allowed fields scope [] := ⟨nofun, .nil⟩

theorem cons {op : Op} (hkind : allowed op = true)
    (hmentions : ∀ place ∈ op.mentions, place.Seen fields scope)
    (hbody : Tidy allowed fields (op.opens ++ scope) op.body)
    (hops : Tidy allowed fields (op.leaves ++ scope) ops) :
    Tidy allowed fields scope (op :: ops) := by
  refine ⟨?_, .cons hmentions hbody.inScope hops.inScope⟩
  rw [allSteps_cons, List.forall_mem_cons, List.forall_mem_append]
  exact ⟨hkind, hbody.kinds, hops.kinds⟩

theorem append (h : Tidy allowed fields scope ops) (hmore : Tidy allowed fields scope more) :
    Tidy allowed fields scope (ops ++ more) := by
  refine ⟨?_, h.inScope.append hmore.inScope⟩
  rw [allSteps_append, List.forall_mem_append]
  exact ⟨h.kinds, hmore.kinds⟩

theorem mono (h : Tidy allowed fields scope ops) (hwider : scope ⊆ wider) :
    Tidy allowed fields wider ops :=
  ⟨h.kinds, h.inScope.mono hwider⟩

end Tidy

end Op

end WireSchema
