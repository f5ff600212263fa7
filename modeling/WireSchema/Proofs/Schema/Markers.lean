-- Structs that only mark the package have no influence. However the markers of a document are
-- taken out, put in or changed, the package and the structs that have a codec stay the same, and
-- nothing but the list of markers among the findings is made from anything else.
import Mathlib.Logic.Relation
import WireSchema.Generate
import WireSchema.Issue
import WireSchema.Wire.Codec

namespace WireSchema

namespace Document

/-! ## Changes to markers -/

/-- One change to the markers of a document: a marker is taken out, a marker is put in at any
place, or a marker gets another role and other fields. -/
inductive MarkerEdit : Document → Document → Prop
  | delete {package : String} {before after : List StructDef} {marker : StructDef}
      (h : sameLetters marker.name package = true) :
      MarkerEdit ⟨package, before ++ marker :: after⟩ ⟨package, before ++ after⟩
  | insert {package : String} {before after : List StructDef} {marker : StructDef}
      (h : sameLetters marker.name package = true) :
      MarkerEdit ⟨package, before ++ after⟩ ⟨package, before ++ marker :: after⟩
  | change {package : String} {before after : List StructDef} {marker : StructDef}
      (h : sameLetters marker.name package = true) (role : Option Role) (fields : List Field) :
      MarkerEdit ⟨package, before ++ marker :: after⟩
        ⟨package, before ++ ⟨marker.name, role, fields⟩ :: after⟩

/-- Two documents of one package, with the same structs that have a codec. -/
structure SameMessages (doc doc' : Document) : Prop where
  package : doc.package = doc'.package
  structs : doc.messageStructs = doc'.messageStructs

variable {doc doc' : Document}

/-- A marker among the structs does not count. -/
theorem messageStructs_marker {package : String} {before after : List StructDef}
    {marker : StructDef} (h : sameLetters marker.name package = true) :
    messageStructs ⟨package, before ++ marker :: after⟩ =
      messageStructs ⟨package, before ++ after⟩ := by
  have hmarker : isMarker ⟨package, before ++ marker :: after⟩ marker = true := h
  unfold messageStructs
  rw [List.filter_append, List.filter_append, List.filter_cons, hmarker]
  rfl

theorem MarkerEdit.sameMessages (h : MarkerEdit doc doc') : SameMessages doc doc' := by
  cases h with
  | delete h => exact ⟨rfl, messageStructs_marker h⟩
  | insert h => exact ⟨rfl, (messageStructs_marker h).symm⟩
  | @change package before after marker h role fields =>
    have hchanged : sameLetters (StructDef.mk marker.name role fields).name package = true := h
    exact ⟨rfl, (messageStructs_marker h).trans (messageStructs_marker hchanged).symm⟩

theorem sameMessages_of_edits (h : Relation.ReflTransGen MarkerEdit doc doc') :
    SameMessages doc doc' := by
  induction h with
  | refl => exact ⟨rfl, rfl⟩
  | tail _ hstep ih =>
    have hsame := hstep.sameMessages
    exact ⟨ih.package.trans hsame.package, ih.structs.trans hsame.structs⟩

/-! ## What is made of a document -/

namespace SameMessages

theorem layout (h : SameMessages doc doc') : doc.layout = doc'.layout := by
  unfold Document.layout
  rw [h.package, h.structs]

theorem program (h : SameMessages doc doc') : doc.program = doc'.program := by
  have hwidths : doc.minWidths = doc'.minWidths := by
    unfold Document.minWidths
    rw [h.layout]
  unfold Document.program
  rw [hwidths, h.package, h.structs]

theorem catalog (h : SameMessages doc doc') : doc.catalog = doc'.catalog := by
  unfold Document.catalog
  rw [h.package, h.structs]

theorem codec (h : SameMessages doc doc') : Codec.ofDocument doc = Codec.ofDocument doc' := by
  unfold Codec.ofDocument
  rw [h.layout]

/-- The check of a target language looks at the structs that have a codec. -/
theorem check (h : SameMessages doc doc') (target : Target) :
    target.check doc = target.check doc' := by
  cases target with
  | managed options => rfl
  | native path =>
    unfold Target.check
    rw [h.structs]

theorem source (h : SameMessages doc doc') (target : Target) (c : Catalog) (p : DocumentProgram) :
    target.source doc c p = target.source doc' c p := by
  cases target with
  | managed options =>
    unfold Target.source Managed.source Managed.classes
    rw [h.package, h.structs]
  | native path =>
    unfold Target.source Native.source Native.structGroups
    rw [h.package, h.structs]

theorem generate (h : SameMessages doc doc') (target : Target) :
    doc.generate target = doc'.generate target := by
  have hcatalog : doc.ownCatalog = doc'.ownCatalog := by
    unfold ownCatalog
    rw [h.catalog]
  unfold Document.generate
  rw [h.check, h.program, hcatalog]
  simp only [h.source]

end SameMessages

end Document

/-! ## Findings -/

/-- The finding is about a marker. -/
def Issue.isMarker : Issue → Bool
  | packageMarker _ => true
  | _ => false

/-- No finding about the side of a struct is about a marker. -/
theorem not_isMarker_of_mem_endpointIssues {sides earlier : List Side} {s : StructDef}
    {issue : Issue} (h : issue ∈ endpointIssues sides earlier s) : issue.isMarker = false := by
  unfold endpointIssues at h
  split at h
  · cases h
  · rcases List.mem_append.1 h with h | h
    · split at h
      · rw [List.mem_singleton.1 h]
        rfl
      · cases h
    · split at h
      · split at h
        · cases h
        · rw [List.mem_singleton.1 h]
          rfl
      · split at h
        · cases h
        · rw [List.mem_singleton.1 h]
          rfl
      · cases h

theorem not_isMarker_of_mem_allEndpointIssues {sides earlier : List Side} {structs : List StructDef}
    {issue : Issue} (h : issue ∈ allEndpointIssues sides earlier structs) :
    issue.isMarker = false := by
  induction structs generalizing earlier with
  | nil => cases h
  | cons s structs ih =>
    rcases List.mem_append.1 h with h | h
    · exact not_isMarker_of_mem_endpointIssues h
    · exact ih h

theorem not_isMarker_of_mem_unknownStructs {known : List String} {s : StructDef} {issue : Issue}
    (h : issue ∈ s.unknownStructs known) : issue.isMarker = false := by
  obtain ⟨f, -, h⟩ := List.mem_flatMap.1 h
  obtain ⟨type, -, rfl⟩ := List.mem_map.1 h
  rfl

namespace Document

/-- The findings about the markers of a document. -/
def markerIssues (doc : Document) : List Issue :=
  (doc.structs.filter doc.isMarker).map fun s => .packageMarker s.name

/-- The findings about the structs of a document that have a codec. -/
def messageIssues (doc : Document) : List Issue :=
  allEndpointIssues (doc.messageStructs.filterMap StructDef.side) [] doc.messageStructs ++
    doc.messageStructs.flatMap (StructDef.unknownStructs (doc.messageStructs.map StructDef.name))

theorem issues_eq (doc : Document) : doc.issues = doc.markerIssues ++ doc.messageIssues :=
  List.append_assoc ..

theorem not_isMarker_of_mem_messageIssues {doc : Document} {issue : Issue}
    (h : issue ∈ doc.messageIssues) : issue.isMarker = false := by
  rcases List.mem_append.1 h with h | h
  · exact not_isMarker_of_mem_allEndpointIssues h
  · obtain ⟨s, -, h⟩ := List.mem_flatMap.1 h
    exact not_isMarker_of_mem_unknownStructs h

variable {doc doc' : Document}

theorem SameMessages.messageIssues (h : SameMessages doc doc') :
    doc.messageIssues = doc'.messageIssues := by
  unfold Document.messageIssues
  rw [h.structs]

/-! ## No influence -/

/-- Everything that is made of two documents is the same, but for the findings about markers,
which come before the others. -/
structure SameOutputs (doc doc' : Document) : Prop where
  layout : doc.layout = doc'.layout
  program : doc.program = doc'.program
  catalog : ∀ ids, doc.catalog.run ids = doc'.catalog.run ids
  generate : ∀ target, doc.generate target = doc'.generate target
  codec : Codec.ofDocument doc = Codec.ofDocument doc'
  issues : ∃ others : List Issue, (∀ issue ∈ others, issue.isMarker = false) ∧
    doc.issues = doc.markerIssues ++ others ∧ doc'.issues = doc'.markerIssues ++ others

/-- Package markers have no influence: whatever is done to the markers of a document, its layouts,
programs, catalogs, source texts and codec stay the same, errors included, and so do the findings
that are not about markers. -/
theorem markers_have_no_influence (h : Relation.ReflTransGen MarkerEdit doc doc') :
    SameOutputs doc doc' := by
  have hsame := sameMessages_of_edits h
  constructor
  · exact hsame.layout
  · exact hsame.program
  · intro ids
    rw [hsame.catalog]
  · exact hsame.generate
  · exact hsame.codec
  · refine ⟨doc.messageIssues, fun issue => not_isMarker_of_mem_messageIssues, doc.issues_eq, ?_⟩
    rw [hsame.messageIssues]
    exact doc'.issues_eq

/-- A document whose marker has a role and embeds a struct that is not there. -/
def markedDocument : Document :=
  ⟨"p", [⟨"P", some .request, [⟨"X", ⟨.struct, none, none, 0, some "Missing"⟩⟩]⟩,
    ⟨"SReq", none, [⟨"N", .ofKind .int32⟩]⟩]⟩

/-- The document with its marker emptied. -/
def emptiedDocument : Document := ⟨"p", [⟨"P", none, []⟩, ⟨"SReq", none, [⟨"N", .ofKind .int32⟩]⟩]⟩

/-- The document with one more marker behind the other struct. -/
def remarkedDocument : Document := ⟨"p", emptiedDocument.structs ++ [⟨"p", some .response, []⟩]⟩

/-- The marker's own finding is all that was found about it, and the second marker adds one. -/
theorem a_changed_marker_has_no_influence :
    Relation.ReflTransGen MarkerEdit markedDocument remarkedDocument ∧
      markedDocument.issues.map Issue.isMarker = [true, false] ∧
      remarkedDocument.issues.map Issue.isMarker = [true, true, false] ∧
      SameOutputs markedDocument remarkedDocument := by
  have hchange : MarkerEdit markedDocument emptiedDocument :=
    @MarkerEdit.change "p" [] _ _ (by decide) none []
  have hinsert : MarkerEdit emptiedDocument remarkedDocument :=
    @MarkerEdit.insert "p" emptiedDocument.structs [] _ (by decide)
  have hedits := Relation.ReflTransGen.tail (.single hchange) hinsert
  exact ⟨hedits, by decide, by decide, markers_have_no_influence hedits⟩

end Document

end WireSchema
