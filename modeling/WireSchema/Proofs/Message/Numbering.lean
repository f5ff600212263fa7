-- The numbers of messages over any run of calls. Every call keeps the names in order of first
-- sight, gives each its place for a number and takes none away, so the numbers stay dense, a name
-- keeps its number, and a catalog can be read off the numbers that are there when it is done.
import Mathlib.Data.List.Forall2
import Mathlib.Data.List.Nodup
import WireSchema.Message
import WireSchema.Proofs.Outcome

namespace WireSchema

namespace MessageIds

variable {ids next : MessageIds} {name : String} {id : Nat} {sights : List String}

/-- The names that have a number. -/
def names (ids : MessageIds) : List String := ids.numbers.map Prod.fst

theorem names_append (ids : MessageIds) (name : String) (id : Nat) :
    names ⟨ids.numbers ++ [(name, id)]⟩ = ids.names ++ [name] := List.map_append

/-! ## One name -/

theorem get?_eq_none : ids.get? name = none ↔ name ∉ ids.names := by
  rw [get?, List.lookup_eq_none_iff, names, List.mem_map]
  constructor
  · rintro h ⟨listed, hmem, rfl⟩
    exact absurd rfl (bne_iff_ne.1 (h listed hmem))
  · intro h listed hmem
    exact bne_iff_ne.2 fun hsame => h ⟨listed, hmem, hsame.symm⟩

theorem exists_get? (h : name ∈ ids.names) : ∃ id, ids.get? name = some id := by
  rw [← Option.ne_none_iff_exists']
  intro hnone
  exact get?_eq_none.1 hnone h

theorem assign_of_known (h : ids.get? name = some id) : ids.assign name = (id, ids) := by
  unfold assign
  rw [h]

theorem assign_of_new (h : name ∉ ids.names) : ids.assign name =
    (ids.numbers.length, ⟨ids.numbers ++ [(name, ids.numbers.length)]⟩) := by
  unfold assign
  rw [get?_eq_none.2 h]

/-- A known name keeps its number when more names follow. -/
theorem get?_of_prefix (hgrow : ids.numbers <+: next.numbers) (h : ids.get? name = some id) :
    next.get? name = some id := by
  obtain ⟨more, hmore⟩ := hgrow
  unfold get? at h ⊢
  rw [← hmore, List.lookup_append, h]
  rfl

theorem prefix_assign (ids : MessageIds) (name : String) :
    ids.numbers <+: (ids.assign name).2.numbers := by
  by_cases h : name ∈ ids.names
  · obtain ⟨id, hid⟩ := exists_get? h
    refine ⟨[], ?_⟩
    rw [assign_of_known hid, List.append_nil]
  · rw [assign_of_new h]
    exact List.prefix_append _ _

/-- The number that a name gets is the one that it has afterwards. -/
theorem get?_assign (ids : MessageIds) (name : String) :
    (ids.assign name).2.get? name = some (ids.assign name).1 := by
  cases hget : ids.get? name with
  | some id =>
    rw [assign_of_known hget]
    exact hget
  | none =>
    rw [assign_of_new (get?_eq_none.1 hget)]
    unfold get? at hget ⊢
    rw [List.lookup_append, hget]
    exact List.lookup_cons_self

/-! ## The names that were seen -/

/-- The names differ, and the number of each is its place. -/
structure Dense (ids : MessageIds) : Prop where
  differ : ids.names.Nodup
  placed : ids.numbers = ids.names.zipIdx

/-- The names are those of the sights, each at its first, under dense numbers. -/
structure Numbers (ids : MessageIds) (sights : List String) : Prop extends ids.Dense where
  first_sights : ids.names = sights.eraseDups

theorem numbers_empty : Numbers .empty [] := ⟨⟨List.nodup_nil, rfl⟩, rfl⟩

theorem Dense.assign (h : ids.Dense) (name : String) : (ids.assign name).2.Dense := by
  by_cases hknown : name ∈ ids.names
  · obtain ⟨id, hid⟩ := exists_get? hknown
    rw [assign_of_known hid]
    exact h
  · rw [assign_of_new hknown]
    constructor
    · rw [names_append, ← List.concat_eq_append]
      exact h.differ.concat hknown
    · rw [names_append, List.zipIdx_append, ← h.placed, names, List.length_map, Nat.zero_add]
      rfl

theorem Numbers.assign (h : ids.Numbers sights) (name : String) :
    (ids.assign name).2.Numbers (sights ++ [name]) := by
  refine ⟨h.toDense.assign name, ?_⟩
  have hmem : name ∈ ids.names ↔ name ∈ sights := by rw [h.first_sights, List.mem_eraseDups]
  rw [List.eraseDups_append, ← h.first_sights]
  by_cases hknown : name ∈ ids.names
  · obtain ⟨id, hid⟩ := exists_get? hknown
    rw [assign_of_known hid]
    simp [List.removeAll, hmem.1 hknown]
  · rw [assign_of_new hknown, names_append]
    simp [List.removeAll, mt hmem.2 hknown, List.eraseDups_cons]

/-- A name has a number exactly when the two are listed together. -/
theorem Dense.get?_iff_mem_toList (h : ids.Dense) :
    ids.get? name = some id ↔ (name, id) ∈ ids.toList := by
  constructor
  · intro hget
    obtain ⟨before, after, hsplit, -⟩ := List.lookup_eq_some_iff.1 hget
    rw [toList, hsplit]
    exact List.mem_append_right before (List.mem_cons_self ..)
  · exact Outcome.lookup_of_nodup h.differ

/-- Listed names are the same exactly when their numbers are. -/
theorem Dense.same_number_iff_same_name {other : String} {number : Nat} (h : ids.Dense)
    (hname : (name, id) ∈ ids.toList) (hother : (other, number) ∈ ids.toList) :
    id = number ↔ name = other := by
  constructor
  · rintro rfl
    rw [toList, h.placed, List.mk_mem_zipIdx_iff_getElem?] at hname hother
    exact Option.some.inj (hname.symm.trans hother)
  · rintro rfl
    rw [← h.get?_iff_mem_toList] at hname hother
    exact Option.some.inj (hname.symm.trans hother)

end MessageIds

/-! ## Endpoints -/

namespace StructDef

variable {ids next : MessageIds} {sights : List String}

/-- A struct's role and endpoint by the numbers that are there. -/
def endpointIn (ids : MessageIds) (s : StructDef) : Option (Role × Endpoint) :=
  s.logicalName.bind fun logical =>
    (ids.get? logical).map fun id => (s.role, ⟨s.name, logical, id⟩)

theorem endpointIn_of_get? {s : StructDef} {logical : String} {id : Nat}
    (hlogical : s.logicalName = some logical) (hid : ids.get? logical = some id) :
    s.endpointIn ids = some (s.role, ⟨s.name, logical, id⟩) := by
  simp [endpointIn, hlogical, hid]

/-- What one struct does to the numbers: it adds the sight of its logical name, and its endpoint
is that of any numbers that grow from there. -/
theorem run_endpoint (s : StructDef) (h : ids.Numbers sights) :
    ids.numbers <+: (s.endpoint.run ids).2.numbers ∧
      (s.endpoint.run ids).2.Numbers (sights ++ s.logicalName.toList) ∧
      ∀ next : MessageIds, (s.endpoint.run ids).2.numbers <+: next.numbers →
        (s.endpoint.run ids).1 = s.endpointIn next ∧
        ∀ logical, s.logicalName = some logical → logical ∈ next.names := by
  cases hlogical : s.logicalName with
  | none =>
    have hrun : s.endpoint.run ids = (none, ids) := by
      unfold endpoint
      rw [hlogical]
      rfl
    rw [hrun]
    refine ⟨List.prefix_refl _, by simpa using h, fun next _ => ⟨?_, nofun⟩⟩
    simp [endpointIn, hlogical]
  | some logical =>
    have hrun : s.endpoint.run ids =
        (some (s.role, ⟨s.name, logical, (ids.assign logical).1⟩), (ids.assign logical).2) := by
      unfold endpoint
      rw [hlogical]
      rfl
    rw [hrun]
    refine ⟨ids.prefix_assign logical, h.assign logical, fun next hgrow => ?_⟩
    have hget := MessageIds.get?_of_prefix hgrow (ids.get?_assign logical)
    refine ⟨(endpointIn_of_get? hlogical hget).symm, ?_⟩
    rintro _ ⟨⟩
    by_contra hnew
    rw [MessageIds.get?_eq_none.2 hnew] at hget
    cases hget

/-- Over a list of structs the endpoints are those of the numbers at the end. -/
theorem run_endpoints (structs : List StructDef) (h : ids.Numbers sights) :
    let done := (structs.mapM endpoint).run ids
    ids.numbers <+: done.2.numbers ∧
      done.2.Numbers (sights ++ structs.filterMap logicalName) ∧
      done.1 = structs.map (endpointIn done.2) ∧
      ∀ s ∈ structs, ∀ logical, s.logicalName = some logical → logical ∈ done.2.names := by
  induction structs generalizing ids sights with
  | nil =>
    refine ⟨List.prefix_refl _, ?_, rfl, nofun⟩
    rw [List.filterMap_nil, List.append_nil]
    exact h
  | cons s structs ih =>
    obtain ⟨hfirst, hnumbers, hendpoint⟩ := run_endpoint s h
    obtain ⟨hrest, hall, hendpoints, hknown⟩ := ih hnumbers
    obtain ⟨hthis, hname⟩ := hendpoint _ hrest
    have hrun : ((s :: structs).mapM endpoint).run ids =
        ((s.endpoint.run ids).1 :: ((structs.mapM endpoint).run (s.endpoint.run ids).2).1,
          ((structs.mapM endpoint).run (s.endpoint.run ids).2).2) := by
      rw [List.mapM_cons]
      rfl
    rw [hrun]
    refine ⟨hfirst.trans hrest, ?_, ?_, ?_⟩
    · rw [List.append_assoc] at hall
      have hsights : (s :: structs).filterMap logicalName =
          s.logicalName.toList ++ structs.filterMap logicalName := by
        rw [List.filterMap_cons]
        cases s.logicalName <;> rfl
      rw [hsights]
      exact hall
    · rw [List.map_cons, ← hthis, ← hendpoints]
    · exact List.forall_mem_cons.2 ⟨hname, hknown⟩

end StructDef

/-- The endpoints are those of the structs, one for each and in their order, under numbers of the
list. -/
def Endpoint.Lists (ids : List (String × Nat)) (structs : List StructDef)
    (endpoints : List Endpoint) : Prop :=
  List.Forall₂ (fun s e => e.structName = s.name ∧ s.logicalName = some e.logicalName ∧
    (e.logicalName, e.messageId) ∈ ids) structs endpoints

/-- The structs of a role are listed when their names are known. -/
theorem Endpoint.lists_ofRole {ids : MessageIds} (hdense : ids.Dense) (role : Role)
    {ending : List Char} (hrole : role.ending = some ending) {structs : List StructDef}
    (hknown : ∀ s ∈ structs, ∀ logical, s.logicalName = some logical → logical ∈ ids.names) :
    Lists ids.toList (structs.filter (·.role == role))
      ((structs.map (StructDef.endpointIn ids)).filterMap fun e =>
        e.bind fun e => if e.1 == role then some e.2 else none) := by
  induction structs with
  | nil => exact .nil
  | cons s structs ih =>
    obtain ⟨hs, hrest⟩ := List.forall_mem_cons.1 hknown
    have hlists := ih hrest
    rw [List.filter_cons, List.map_cons, List.filterMap_cons]
    by_cases hsame : s.role = role
    · obtain ⟨logical, hlogical⟩ : ∃ logical, s.logicalName = some logical := by
        unfold StructDef.logicalName
        rw [hsame, hrole]
        exact ⟨_, rfl⟩
      obtain ⟨id, hid⟩ := MessageIds.exists_get? (hs logical hlogical)
      rw [StructDef.endpointIn_of_get? hlogical hid]
      simp only [hsame, beq_self_eq_true, if_true, Option.bind_some]
      exact .cons ⟨rfl, hlogical, hdense.get?_iff_mem_toList.1 hid⟩ hlists
    · have hskip : ((s.endpointIn ids).bind fun e =>
          if e.1 == role then some e.2 else none) = none := by
        cases hlogical : s.logicalName <;> simp [StructDef.endpointIn, hlogical, hsame]
      rw [hskip, if_neg (by simpa using hsame)]
      exact hlists

/-- A catalog by the numbers that are there when it is done. -/
structure Catalog.Matches (c : Catalog) (doc : Document) (ids : MessageIds) : Prop where
  ids_eq : c.ids = ids.toList
  requests : Endpoint.Lists c.ids (doc.messageStructs.filter (·.role == .request)) c.requests
  responses : Endpoint.Lists c.ids (doc.messageStructs.filter (·.role == .response)) c.responses
  pairs : ∀ req ∈ c.requests, ∀ rsp ∈ c.responses,
    req.messageId = rsp.messageId ↔ req.logicalName = rsp.logicalName

theorem Endpoint.Lists.listed {ids : List (String × Nat)} {structs : List StructDef}
    {endpoints : List Endpoint} (h : Lists ids structs endpoints) {e : Endpoint}
    (he : e ∈ endpoints) : (e.logicalName, e.messageId) ∈ ids := by
  obtain ⟨s, _, _, _, hlisted⟩ := Outcome.exists_of_forall₂ h e he
  exact hlisted

theorem Document.run_catalog (doc : Document) {ids : MessageIds} {sights : List String}
    (h : ids.Numbers sights) :
    let done := doc.catalog.run ids
    ids.numbers <+: done.2.numbers ∧
      done.2.Numbers (sights ++ doc.messageStructs.filterMap StructDef.logicalName) ∧
      done.1.Matches doc done.2 := by
  obtain ⟨hgrow, hnumbers, hendpoints, hknown⟩ :=
    StructDef.run_endpoints doc.messageStructs h
  have hrequests := Endpoint.lists_ofRole hnumbers.toDense .request rfl hknown
  have hresponses := Endpoint.lists_ofRole hnumbers.toDense .response rfl hknown
  rw [← hendpoints] at hrequests hresponses
  refine ⟨hgrow, hnumbers, rfl, hrequests, hresponses, fun req hreq rsp hrsp => ?_⟩
  exact hnumbers.same_number_iff_same_name (hrequests.listed hreq) (hresponses.listed hrsp)

/-! ## Runs -/

namespace MessageIds

/-- A call to the numbers. -/
inductive Call where
  | assign (name : String)
  | get (name : String)
  | build (doc : Document)

namespace Call

/-- The numbers after a call. -/
def run (ids : MessageIds) : Call → MessageIds
  | assign name => (ids.assign name).2
  | get _ => ids
  | build doc => (doc.catalog.run ids).2

/-- The names that a call brings into sight. -/
def sights : Call → List String
  | assign name => [name]
  | get _ => []
  | build doc => doc.messageStructs.filterMap StructDef.logicalName

end Call

/-- The numbers after calls one after the other, when there were none before. -/
def after (calls : List Call) : MessageIds := calls.foldl Call.run .empty

theorem Numbers.call {ids : MessageIds} {sights : List String} (h : ids.Numbers sights)
    (call : Call) :
    ids.numbers <+: (call.run ids).numbers ∧ (call.run ids).Numbers (sights ++ call.sights) := by
  cases call with
  | assign name => exact ⟨ids.prefix_assign name, h.assign name⟩
  | get name => exact ⟨List.prefix_refl _, by simpa [Call.run, Call.sights] using h⟩
  | build doc =>
    obtain ⟨hgrow, hnumbers, _⟩ := doc.run_catalog h
    exact ⟨hgrow, hnumbers⟩

theorem Numbers.calls {ids : MessageIds} {sights : List String} (h : ids.Numbers sights)
    (calls : List Call) :
    ids.numbers <+: (calls.foldl Call.run ids).numbers ∧
      (calls.foldl Call.run ids).Numbers (sights ++ calls.flatMap Call.sights) := by
  induction calls generalizing ids sights with
  | nil => exact ⟨List.prefix_refl _, by simpa using h⟩
  | cons call calls ih =>
    obtain ⟨hfirst, hnumbers⟩ := h.call call
    obtain ⟨hrest, hall⟩ := ih hnumbers
    refine ⟨hfirst.trans hrest, ?_⟩
    rw [List.flatMap_cons, ← List.append_assoc]
    exact hall

theorem numbers_after (calls : List Call) :
    (after calls).Numbers (calls.flatMap Call.sights) :=
  (numbers_empty.calls calls).2

theorem prefix_after (calls more : List Call) :
    (after calls).numbers <+: (after (calls ++ more)).numbers := by
  unfold after
  rw [List.foldl_append]
  exact ((numbers_after calls).calls more).1

/-- The numbers over any run of calls. The names are listed from zero on in order of first sight,
none twice. A number that was given stays, a known name is given its number again, and asking
agrees with the list. A catalog lists all numbers, the requests and the responses of its document
in order of declaration, each under a number of the list, so a request and a response share a
number exactly when they share a name. -/
theorem numbers_over_any_run (calls : List Call) :
    let ids := after calls
    (ids.toList.map Prod.fst = (calls.flatMap Call.sights).eraseDups ∧
      (ids.toList.map Prod.fst).Nodup ∧
      ids.toList.map Prod.snd = List.range ids.toList.length) ∧
    (∀ name id, ids.get? name = some id ↔ (name, id) ∈ ids.toList) ∧
    (∀ name id, ids.get? name = some id →
      ids.assign name = (id, ids) ∧ ∀ more, (after (calls ++ more)).get? name = some id) ∧
    (∀ name, (name, (ids.assign name).1) ∈ (after (calls ++ [.assign name])).toList) ∧
    ∀ doc : Document,
      (doc.catalog.run ids).1.Matches doc (after (calls ++ [.build doc])) := by
  intro ids
  have hnumbers : ids.Numbers (calls.flatMap Call.sights) := numbers_after calls
  have hnext (call : Call) : after (calls ++ [call]) = call.run ids := by
    unfold after
    rw [List.foldl_append]
    rfl
  refine ⟨⟨hnumbers.first_sights, hnumbers.differ, ?_⟩, ?_, ?_, ?_, ?_⟩
  · rw [toList, hnumbers.placed, List.zipIdx_map_snd, List.length_zipIdx, List.range_eq_range']
  · exact fun name id => hnumbers.get?_iff_mem_toList
  · intro name id h
    exact ⟨assign_of_known h, fun more => get?_of_prefix (prefix_after calls more) h⟩
  · intro name
    rw [hnext]
    exact (hnumbers.assign name).get?_iff_mem_toList.1 (ids.get?_assign name)
  · intro doc
    rw [hnext]
    exact (doc.run_catalog hnumbers).2.2

/-- A document with a response before its request, a struct that is neither, a marker and a
request by its stated role. -/
def gameDocument : Document :=
  ⟨"game", [⟨"MoveRsp", none, []⟩, ⟨"Item", none, []⟩, ⟨"LoginReq", none, []⟩,
    ⟨"MoveReq", none, []⟩, ⟨"Game", some .request, []⟩, ⟨"Hello", some .request, []⟩]⟩

/-- A name from before, then those of a document: the response and the request of a move share the
number one, and keep it whatever comes. -/
theorem a_move_keeps_its_number :
    let calls := [.assign "Chat", .build gameDocument, .get "Login"]
    let ids := after calls
    ids.toList = [("Chat", 0), ("Move", 1), ("Login", 2), ("Hello", 3)] ∧
      ids.get? "Move" = some 1 ∧ ids.assign "Move" = (1, ids) ∧
      (∀ more, (after (calls ++ more)).get? "Move" = some 1) ∧
      (gameDocument.catalog.run ids).1.Matches gameDocument
        (after (calls ++ [.build gameDocument])) := by
  intro calls ids
  have hlist : ids.toList = [("Chat", 0), ("Move", 1), ("Login", 2), ("Hello", 3)] := by rfl
  obtain ⟨_, hget, hkept, _, hcatalog⟩ := numbers_over_any_run calls
  have hmove : ids.get? "Move" = some 1 := (hget "Move" 1).2 (by rw [hlist]; decide)
  exact ⟨hlist, hmove, (hkept _ _ hmove).1, (hkept _ _ hmove).2, hcatalog gameDocument⟩

end MessageIds

end WireSchema
