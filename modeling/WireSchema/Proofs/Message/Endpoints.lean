-- The findings about the sides of messages are what the catalog shows. The findings compare roles
-- and logical names, the catalog compares numbers, and a number stands for one logical name; so a
-- document without such findings is one whose numbers each belong to one request and one response.
import WireSchema.Issue
import WireSchema.Proofs.Message.Numbering

namespace WireSchema

/-! ## Findings of one sort -/

namespace Issue

/-- The struct of a role that was found to be without its other side. -/
def alone? : Role → Issue → Option String
  | .request, requestWithoutResponse name => some name
  | .response, responseWithoutRequest name => some name
  | _, _ => none

/-- The side that was found more than once. -/
def repeated? : Issue → Option Side
  | duplicateEndpoint logical role => some (role, logical)
  | _ => none

/-- The finding is about the sides of messages. -/
def AboutSides (issue : Issue) : Prop :=
  issue.alone? .request ≠ none ∨ issue.alone? .response ≠ none ∨ issue.repeated? ≠ none

end Issue

/-- A sort of findings that are about sides is found among the findings about sides only. -/
theorem Document.filterMap_issues {α : Type} (doc : Document) {sort : Issue → Option α}
    (hmarker : ∀ name, sort (.packageMarker name) = none)
    (hunknown : ∀ location type, sort (.unknownStruct location type) = none) :
    doc.issues.filterMap sort = (allEndpointIssues (doc.messageStructs.filterMap StructDef.side) []
      doc.messageStructs).filterMap sort := by
  unfold Document.issues
  dsimp only
  rw [List.filterMap_append, List.filterMap_append]
  have hbefore : ((doc.structs.filter doc.isMarker).map fun s =>
      Issue.packageMarker s.name).filterMap sort = [] := by
    rw [List.filterMap_eq_nil_iff, List.forall_mem_map]
    exact fun s _ => hmarker s.name
  have hafter : (doc.messageStructs.flatMap (StructDef.unknownStructs
      (doc.messageStructs.map StructDef.name))).filterMap sort = [] := by
    rw [List.filterMap_eq_nil_iff]
    intro issue hissue
    obtain ⟨s, -, hissue⟩ := List.mem_flatMap.1 hissue
    obtain ⟨f, -, hissue⟩ := List.mem_flatMap.1 hissue
    obtain ⟨type, -, rfl⟩ := List.mem_map.1 hissue
    exact hunknown _ type
  rw [hbefore, hafter, List.nil_append, List.append_nil]

/-! ## Findings by sides -/

variable {sides earlier : List Side} {structs : List StructDef} {s : StructDef}

/-- The side of a struct is the one of its role. -/
theorem StructDef.fst_side {side : Side} (h : s.side = some side) : side.1 = s.role := by
  obtain ⟨logical, -, rfl⟩ := Option.map_eq_some_iff.1 h
  rfl

/-- The struct has a role with an other side, and that side is not there. -/
def StructDef.isAlone (sides : List Side) (role other : Role) (s : StructDef) : Bool :=
  s.role == role && s.side.any fun side => !sides.contains (other, side.2)

/-- One struct is found to be alone once, if it is. -/
theorem alone_endpointIssues {role other : Role} (h : role.counterpart = some other) :
    (endpointIssues sides earlier s).filterMap (Issue.alone? role) =
      if s.isAlone sides role other then [s.name] else [] := by
  unfold endpointIssues StructDef.isAlone
  cases hside : s.side with
  | none => simp
  | some side =>
    have hrole := StructDef.fst_side hside
    obtain ⟨own, logical⟩ := side
    subst hrole
    -- The finding that a side is repeated is of another sort.
    have hrepeated : (if sides.count (s.role, logical) > 1 && !earlier.contains (s.role, logical)
        then [Issue.duplicateEndpoint logical s.role] else []).filterMap (Issue.alone? role) =
          [] := by
      split
      · cases role <;> rfl
      · rfl
    dsimp only
    rw [List.filterMap_append, hrepeated, List.nil_append]
    cases role <;> cases h <;> cases s.role <;> simp [Issue.alone?] <;> split <;> rfl

/-- The structs that are found to be alone are those that are, in order of declaration. -/
theorem alone_allEndpointIssues {role other : Role} (h : role.counterpart = some other) :
    (allEndpointIssues sides earlier structs).filterMap (Issue.alone? role) =
      (structs.filter (StructDef.isAlone sides role other)).map StructDef.name := by
  induction structs generalizing earlier with
  | nil => rfl
  | cons s structs ih =>
    rw [allEndpointIssues, List.filterMap_append, alone_endpointIssues h, ih, List.filter_cons]
    split <;> rfl

/-- One struct is found to repeat its side when the side is there again and was not met before. -/
theorem repeated_endpointIssues :
    (endpointIssues sides earlier s).filterMap Issue.repeated? =
      s.side.toList.filter fun side => decide (1 < sides.count side) && !earlier.contains side := by
  unfold endpointIssues
  cases s.side with
  | none => rfl
  | some side =>
    obtain ⟨role, logical⟩ := side
    have hrepeated {again : Bool} : (if again then [Issue.duplicateEndpoint logical role]
        else []).filterMap Issue.repeated? = if again then [(role, logical)] else [] := by
      cases again <;> rfl
    -- The finding that a side is alone is of another sort.
    have halone {there : Bool} (issue : Issue) (hsort : issue.repeated? = none) :
        (if there then [] else [issue]).filterMap Issue.repeated? = [] := by
      cases there <;> simp [hsort]
    rw [Option.toList_some, List.filter_singleton, Bool.cond_eq_ite]
    dsimp only
    rw [List.filterMap_append, hrepeated]
    cases role with
    | request => rw [halone (.requestWithoutResponse s.name) rfl, List.append_nil]
    | response => rw [halone (.responseWithoutRequest s.name) rfl, List.append_nil]
    | plain => rw [List.filterMap_nil, List.append_nil]

/-- The sides that are found more than once are found once each. They are those that are there more
than once and were not met before. -/
theorem repeated_allEndpointIssues (sides earlier : List Side) (structs : List StructDef) :
    let found := (allEndpointIssues sides earlier structs).filterMap Issue.repeated?
    found.Nodup ∧ ∀ side, side ∈ found ↔
      side ∈ structs.filterMap StructDef.side ∧ side ∉ earlier ∧ 1 < sides.count side := by
  induction structs generalizing earlier with
  | nil => exact ⟨List.nodup_nil, fun side => by simp [allEndpointIssues]⟩
  | cons s structs ih =>
    obtain ⟨hdiffer, hmem⟩ := ih (s.side.toList ++ earlier)
    have hsides : (s :: structs).filterMap StructDef.side =
        s.side.toList ++ structs.filterMap StructDef.side := by
      rw [List.filterMap_cons]
      cases s.side <;> rfl
    rw [allEndpointIssues, List.filterMap_append, repeated_endpointIssues, hsides]
    constructor
    · rw [List.nodup_append]
      refine ⟨?_, hdiffer, ?_⟩
      · cases s.side with
        | none => exact List.nodup_nil
        | some side => exact (List.nodup_singleton side).filter _
      · rintro side hthis _ hlater rfl
        refine ((hmem side).1 hlater).2.1 (List.mem_append_left _ ?_)
        exact List.mem_of_mem_filter hthis
    · intro side
      rw [List.mem_append, hmem, List.mem_filter, List.mem_append, List.mem_append]
      by_cases hthis : side ∈ s.side.toList
      · simp [hthis, and_comm]
      · simp [hthis]

/-! ## Findings and the catalog -/

/-- The structs of a role are those whose sides are of it. -/
theorem StructDef.filterMap_side (role : Role) (structs : List StructDef) :
    (structs.filter (·.role == role)).filterMap side =
      (structs.filterMap side).filter (·.1 == role) := by
  rw [List.filterMap_filter, List.filter_filterMap]
  refine List.filterMap_congr fun s _ => ?_
  cases hside : s.side with
  | none => simp
  | some side =>
    rw [← fst_side hside]
    rfl

theorem Endpoint.Lists.map_side {ids : List (String × Nat)} {role : Role}
    {endpoints : List Endpoint} (hrole : ∀ s ∈ structs, s.role = role)
    (h : Lists ids structs endpoints) :
    endpoints.map (fun e => (role, e.logicalName)) = structs.filterMap StructDef.side := by
  induction h with
  | nil => rfl
  | @cons s e structs endpoints hs _ ih =>
    obtain ⟨hthis, hrest⟩ := List.forall_mem_cons.1 hrole
    have hside : s.side = some (role, e.logicalName) := by
      rw [StructDef.side, hs.2.1, ← hthis]
      rfl
    rw [List.map_cons, List.filterMap_cons, hside, ih hrest]

namespace Catalog

/-- The endpoints of a role. -/
def endpoints (c : Catalog) : Role → List Endpoint
  | .request => c.requests
  | .response => c.responses
  | .plain => []

variable {c : Catalog} {doc : Document} {ids : MessageIds} {role other : Role}

theorem Matches.lists (h : c.Matches doc ids) (hrole : role ≠ .plain) :
    Endpoint.Lists c.ids (doc.messageStructs.filter (·.role == role)) (c.endpoints role) := by
  cases role with
  | request => exact h.requests
  | response => exact h.responses
  | plain => exact absurd rfl hrole

/-- Every endpoint is under a number of the catalog. -/
theorem Matches.listed (h : c.Matches doc ids) {e : Endpoint} (he : e ∈ c.endpoints role) :
    (e.logicalName, e.messageId) ∈ c.ids := by
  by_cases hrole : role = .plain
  · subst hrole
    cases he
  · exact (h.lists hrole).listed he

/-- There are as many endpoints of a role under a logical name as structs with that side. -/
theorem Matches.countP_logicalName (h : c.Matches doc ids) (logical : String) :
    (c.endpoints role).countP (·.logicalName == logical) =
      (doc.messageStructs.filterMap StructDef.side).count (role, logical) := by
  have hsides : (c.endpoints role).map (fun e => (role, e.logicalName)) =
      (doc.messageStructs.filterMap StructDef.side).filter (·.1 == role) := by
    by_cases hrole : role = .plain
    · subst hrole
      -- A struct that is neither request nor response has no side.
      rw [← StructDef.filterMap_side, eq_comm, endpoints, List.map_nil, List.filterMap_eq_nil_iff]
      intro s hs
      have hplain := beq_iff_eq.1 (List.mem_filter.1 hs).2
      simp [StructDef.side, StructDef.logicalName, hplain, Role.ending]
    · rw [← StructDef.filterMap_side]
      refine (h.lists hrole).map_side fun s hs => ?_
      exact beq_iff_eq.1 (List.mem_filter.1 hs).2
  have hcount := List.count_filter (l := doc.messageStructs.filterMap StructDef.side)
    (p := fun side => side.1 == role) (a := (role, logical)) (beq_self_eq_true role)
  rw [← hcount, ← hsides, List.count_eq_countP, List.countP_map]
  refine List.countP_congr fun e _ => ?_
  simp

/-- There are as many endpoints of a role under a number as under its logical name. -/
theorem Matches.countP_messageId (h : c.Matches doc ids) (hdense : ids.Dense)
    {name : String} {id : Nat} (hlisted : (name, id) ∈ c.ids) :
    (c.endpoints role).countP (·.messageId == id) =
      (c.endpoints role).countP (·.logicalName == name) := by
  refine List.countP_congr fun e he => ?_
  have hother := h.listed he
  rw [h.ids_eq] at hlisted hother
  rw [beq_iff_eq, beq_iff_eq]
  exact hdense.same_number_iff_same_name hother hlisted

/-- A role has an endpoint under a number when a struct has the side of its logical name. -/
theorem Matches.any_messageId (h : c.Matches doc ids) (hdense : ids.Dense)
    {name : String} {id : Nat} (hlisted : (name, id) ∈ c.ids) :
    (c.endpoints role).any (·.messageId == id) =
      (doc.messageStructs.filterMap StructDef.side).contains (role, name) := by
  rw [Bool.eq_iff_iff, List.any_eq_true, ← List.countP_pos_iff, h.countP_messageId hdense hlisted,
    h.countP_logicalName, List.count_pos_iff, List.contains_iff_mem]

/-- The endpoints whose number the other role does not have are those of the structs that are
alone. -/
theorem Matches.alone_endpoints (h : c.Matches doc ids) (hdense : ids.Dense)
    (hrole : role ≠ .plain) :
    ((c.endpoints role).filter fun e =>
        !(c.endpoints other).any (·.messageId == e.messageId)).map Endpoint.structName =
      (doc.messageStructs.filter (StructDef.isAlone (doc.messageStructs.filterMap StructDef.side)
        role other)).map StructDef.name := by
  have hstructs : doc.messageStructs.filter
      (StructDef.isAlone (doc.messageStructs.filterMap StructDef.side) role other) =
      (doc.messageStructs.filter (·.role == role)).filter fun s => s.side.any fun side =>
        !(doc.messageStructs.filterMap StructDef.side).contains (other, side.2) := by
    rw [List.filter_filter]
    exact List.filter_congr fun s _ => Bool.and_comm ..
  rw [hstructs, ← List.forall₂_eq_eq_eq, List.forall₂_map_left_iff, List.forall₂_map_right_iff]
  refine (List.rel_filter (fun s e hse => ?_) (h.lists hrole)).flip.imp fun e s hse => hse.1
  obtain ⟨-, hlogical, hlisted⟩ := hse
  dsimp only
  rw [h.any_messageId hdense hlisted, StructDef.side, hlogical]
  rfl

/-- A side of a struct is the side of an endpoint. -/
theorem Matches.exists_endpoint (h : c.Matches doc ids) {logical : String}
    (hside : (role, logical) ∈ doc.messageStructs.filterMap StructDef.side) :
    ∃ e ∈ c.endpoints role, e.logicalName = logical := by
  rw [← List.count_pos_iff, ← h.countP_logicalName, List.countP_pos_iff] at hside
  obtain ⟨e, he, hname⟩ := hside
  exact ⟨e, he, beq_iff_eq.1 hname⟩

theorem Matches.mem_sides (h : c.Matches doc ids) {e : Endpoint} (he : e ∈ c.endpoints role) :
    (role, e.logicalName) ∈ doc.messageStructs.filterMap StructDef.side := by
  rw [← List.count_pos_iff, ← h.countP_logicalName, List.countP_pos_iff]
  exact ⟨e, he, beq_self_eq_true _⟩

/-- Every endpoint of a role has its number in the other role when the sides are paired. -/
theorem Matches.alone_eq_nil_iff (h : c.Matches doc ids) (hdense : ids.Dense) :
    ((c.endpoints role).filter fun e =>
        !(c.endpoints other).any (·.messageId == e.messageId)).map Endpoint.structName = [] ↔
      ∀ logical, (role, logical) ∈ doc.messageStructs.filterMap StructDef.side →
        (other, logical) ∈ doc.messageStructs.filterMap StructDef.side := by
  rw [List.map_eq_nil_iff, List.filter_eq_nil_iff]
  constructor
  · intro hnone logical hside
    obtain ⟨e, he, rfl⟩ := h.exists_endpoint hside
    have hthere := hnone e he
    rw [h.any_messageId hdense (h.listed he)] at hthere
    simpa using hthere
  · intro hpaired e he
    have hthere := hpaired e.logicalName (h.mem_sides he)
    rw [h.any_messageId hdense (h.listed he)]
    simpa using hthere

/-- A logical name that has a number is the name of a request or of a response. -/
theorem Matches.side_of_listed (h : c.Matches doc ids)
    (hsights : ids.names = (doc.messageStructs.filterMap StructDef.logicalName).eraseDups)
    {name : String} {id : Nat} (hlisted : (name, id) ∈ c.ids) :
    (.request, name) ∈ doc.messageStructs.filterMap StructDef.side ∨
      (.response, name) ∈ doc.messageStructs.filterMap StructDef.side := by
  have hname : name ∈ ids.names := by
    rw [h.ids_eq] at hlisted
    exact List.mem_map_of_mem hlisted
  rw [hsights, List.mem_eraseDups] at hname
  obtain ⟨s, hs, hlogical⟩ := List.mem_filterMap.1 hname
  have hside : (s.role, name) ∈ doc.messageStructs.filterMap StructDef.side :=
    List.mem_filterMap.2 ⟨s, hs, by rw [StructDef.side, hlogical]; rfl⟩
  cases hrole : s.role with
  | request => exact Or.inl (hrole ▸ hside)
  | response => exact Or.inr (hrole ▸ hside)
  | plain => simp [StructDef.logicalName, hrole, Role.ending] at hlogical

/-- Sides are paired and not repeated exactly when each number belongs to one request and to one
response. -/
theorem Matches.paired_once_iff (h : c.Matches doc ids) (hdense : ids.Dense)
    (hsights : ids.names = (doc.messageStructs.filterMap StructDef.logicalName).eraseDups) :
    ((∀ logical, (.request, logical) ∈ doc.messageStructs.filterMap StructDef.side →
        (.response, logical) ∈ doc.messageStructs.filterMap StructDef.side) ∧
      (∀ logical, (.response, logical) ∈ doc.messageStructs.filterMap StructDef.side →
        (.request, logical) ∈ doc.messageStructs.filterMap StructDef.side) ∧
      ∀ role logical, ¬ 2 ≤ (c.endpoints role).countP (·.logicalName == logical)) ↔
    ∀ name id, (name, id) ∈ c.ids →
      c.requests.countP (·.messageId == id) = 1 ∧
        c.responses.countP (·.messageId == id) = 1 := by
  have hcount {name : String} {id : Nat} (hlisted : (name, id) ∈ c.ids) (role : Role) :
      (c.endpoints role).countP (·.messageId == id) =
        (doc.messageStructs.filterMap StructDef.side).count (role, name) := by
    rw [h.countP_messageId hdense hlisted, h.countP_logicalName]
  constructor
  · rintro ⟨hrequests, hresponses, honce⟩ name id hlisted
    have hboth : (.request, name) ∈ doc.messageStructs.filterMap StructDef.side ∧
        (.response, name) ∈ doc.messageStructs.filterMap StructDef.side := by
      rcases h.side_of_listed hsights hlisted with hside | hside
      · exact ⟨hside, hrequests name hside⟩
      · exact ⟨hresponses name hside, hside⟩
    have hone {role : Role} (hside : (role, name) ∈ doc.messageStructs.filterMap StructDef.side) :
        (c.endpoints role).countP (·.messageId == id) = 1 := by
      have hmany := honce role name
      rw [h.countP_logicalName] at hmany
      have hpos := List.count_pos_iff.2 hside
      rw [hcount hlisted]
      omega
    exact ⟨hone hboth.1, hone hboth.2⟩
  · intro hunique
    have hone {name : String} {id : Nat} (hlisted : (name, id) ∈ c.ids) :
        (doc.messageStructs.filterMap StructDef.side).count (.request, name) = 1 ∧
          (doc.messageStructs.filterMap StructDef.side).count (.response, name) = 1 := by
      rw [← hcount hlisted, ← hcount hlisted]
      exact hunique name id hlisted
    refine ⟨fun logical hside => ?_, fun logical hside => ?_, fun role logical hmany => ?_⟩
    · obtain ⟨e, he, rfl⟩ := h.exists_endpoint hside
      exact List.count_pos_iff.1 (by rw [(hone (h.listed he)).2]; exact Nat.one_pos)
    · obtain ⟨e, he, rfl⟩ := h.exists_endpoint hside
      exact List.count_pos_iff.1 (by rw [(hone (h.listed he)).1]; exact Nat.one_pos)
    · obtain ⟨e, he, hname⟩ := List.countP_pos_iff.1 (Nat.lt_of_lt_of_le Nat.two_pos hmany)
      obtain rfl := beq_iff_eq.1 hname
      obtain ⟨hrequest, hresponse⟩ := hone (h.listed he)
      rw [h.countP_logicalName] at hmany
      cases role with
      | request => omega
      | response => omega
      | plain => cases he

end Catalog

/-! ## The law -/

/-- No finding is about sides when there is none of any of the three sorts. -/
theorem Issue.none_aboutSides {issues : List Issue} : (∀ issue ∈ issues, ¬ issue.AboutSides) ↔
    issues.filterMap (alone? .request) = [] ∧ issues.filterMap (alone? .response) = [] ∧
      issues.filterMap repeated? = [] := by
  simp only [AboutSides, List.filterMap_eq_nil_iff, not_or, not_not, ← forall_and]

/-- The findings about sides are those of the catalog. The requests that are found to be without a
response are those whose number no response has, each once and in order of declaration, and so for
the responses. A side is found to be repeated, once, when the role has two endpoints or more of the
logical name. So nothing is found about sides exactly when every number belongs to one request and
to one response. -/
theorem Document.endpoint_issues_match_catalog (doc : Document) :
    let c := doc.ownCatalog
    (∀ role other, role.counterpart = some other →
      doc.issues.filterMap (Issue.alone? role) =
        ((c.endpoints role).filter fun e =>
          !(c.endpoints other).any (·.messageId == e.messageId)).map Endpoint.structName) ∧
    ((doc.issues.filterMap Issue.repeated?).Nodup ∧ ∀ role logical,
      (role, logical) ∈ doc.issues.filterMap Issue.repeated? ↔
        2 ≤ (c.endpoints role).countP (·.logicalName == logical)) ∧
    ((∀ issue ∈ doc.issues, ¬ issue.AboutSides) ↔ ∀ name id, (name, id) ∈ c.ids →
      c.requests.countP (·.messageId == id) = 1 ∧
        c.responses.countP (·.messageId == id) = 1) := by
  intro c
  obtain ⟨-, ⟨hdense, hsights⟩, hmatches⟩ := doc.run_catalog MessageIds.numbers_empty
  change c.Matches doc _ at hmatches
  have halone : ∀ role other, role.counterpart = some other →
      doc.issues.filterMap (Issue.alone? role) =
        ((c.endpoints role).filter fun e =>
          !(c.endpoints other).any (·.messageId == e.messageId)).map Endpoint.structName := by
    intro role other h
    have hrole : role ≠ .plain := by
      rintro rfl
      cases h
    rw [hmatches.alone_endpoints hdense hrole, ← alone_allEndpointIssues h]
    refine doc.filterMap_issues (fun name => ?_) fun location type => ?_
    · cases role <;> rfl
    · cases role <;> rfl
  have hrepeated : (doc.issues.filterMap Issue.repeated?).Nodup ∧ ∀ role logical,
      (role, logical) ∈ doc.issues.filterMap Issue.repeated? ↔
        2 ≤ (c.endpoints role).countP (·.logicalName == logical) := by
    rw [doc.filterMap_issues (fun _ => rfl) fun _ _ => rfl]
    obtain ⟨hnodup, hmem⟩ := repeated_allEndpointIssues
      (doc.messageStructs.filterMap StructDef.side) [] doc.messageStructs
    refine ⟨hnodup, fun role logical => ?_⟩
    rw [hmem, hmatches.countP_logicalName, ← List.count_pos_iff]
    simp only [List.not_mem_nil, not_false_eq_true, true_and]
    omega
  refine ⟨halone, hrepeated, ?_⟩
  rw [Issue.none_aboutSides, halone .request .response rfl, halone .response .request rfl,
    hmatches.alone_eq_nil_iff hdense, hmatches.alone_eq_nil_iff hdense,
    List.eq_nil_iff_forall_not_mem, ← hmatches.paired_once_iff hdense hsights]
  simp only [Prod.forall, hrepeated.2]

end WireSchema
