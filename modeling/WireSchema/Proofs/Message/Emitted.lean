-- The numbers of messages in generated code. Both languages keep them in an enumeration of bytes
-- and cast them to bytes, while a document may have any number of messages: the numbers fit as long
-- as there are at most 256 logical names, and no check stops a document that has more.
import WireSchema.Proofs.Message.Numbering
import WireSchema.Proofs.Native.Expressible

namespace WireSchema

/-! ## Pieces of code -/

namespace Code

/-- A piece is among others, or in a block that is within them. -/
inductive Within (piece : Code) : List Code → Prop
  | here {pieces : List Code} : piece ∈ pieces → Within piece pieces
  | inside {pieces body : List Code} {header close : String} :
      .block header body close ∈ pieces → Within piece body → Within piece pieces

variable {piece : Code}

/-- No piece of a group is lost where groups are set apart. -/
theorem mem_separated {group : List Code} {groups : List (List Code)} (hpiece : piece ∈ group)
    (hgroup : group ∈ groups) : piece ∈ separated groups := by
  induction groups with
  | nil => cases hgroup
  | cons g groups ih =>
    unfold separated
    rcases List.mem_cons.1 hgroup with rfl | hlater
    · split
      · cases hpiece
      · exact hpiece
      · exact List.mem_append_left _ hpiece
    · have hrest := ih hlater
      split
      · exact hrest
      next hnone =>
        rw [hnone] at hrest
        cases hrest
      · exact List.mem_append_right _ (List.mem_cons_of_mem _ hrest)

theorem Within.braces {header : String} {body pieces : List Code}
    (hblock : Code.braces header body ∈ pieces) (h : Within piece body) : Within piece pieces :=
  .inside hblock h

end Code

open Code

/-! ## The enumeration of the numbers -/

/-- The enumeration of the numbers in the target language, with a line for each. -/
def Target.enumeration (c : Catalog) : Target → Code
  | managed _ => braces "public enum MessageID : byte"
      (c.ids.map fun (name, id) => .line s!"MsgID_{name} = {id},")
  | native _ => braces "pub enum MessageId" (c.ids.map fun (name, id) => .line s!"{name} = {id},")

/-- The enumeration stands in the code, whatever the target. -/
theorem Target.enumeration_within (target : Target) (doc : Document) (c : Catalog)
    (p : DocumentProgram) : Within (target.enumeration c) (target.source doc c p) := by
  cases target with
  | managed o =>
    refine .braces (List.mem_of_mem_getLast? rfl) ?_
    refine .braces (List.mem_singleton_self (braces _ (separated _))) (.here ?_)
    refine mem_separated (List.mem_singleton_self _) ?_
    simp [enumeration, Managed.messageEnum]
  | native path =>
    refine .braces (List.mem_of_mem_getLast? rfl) (.here ?_)
    have henum : (Target.native path).enumeration c ∈ Native.messageEnum c :=
      List.mem_append_right _ (List.mem_of_mem_getLast? rfl)
    exact mem_separated henum (by simp)

variable {doc : Document} {target : Target} {names : List String} {n : Nat}

/-- Source text is that of the programs. -/
theorem Document.source_of_generate {text : String} (h : doc.generate target = .ok text) :
    ∃ p, doc.program = .ok p ∧
      text = Code.render target.indent (target.source doc doc.ownCatalog p) := by
  unfold Document.generate at h
  obtain ⟨-, h⟩ := Outcome.check_bind_eq_ok.1 h
  obtain ⟨p, hp, h⟩ := Outcome.bind_eq_ok.1 h
  exact ⟨p, Outcome.mapError_eq_ok.1 hp, (Except.ok.inj h).symm⟩

/-! ## Numbers and bytes -/

/-- The logical names of a document, each once. -/
def Document.logicalNames (doc : Document) : List String :=
  (doc.messageStructs.filterMap StructDef.logicalName).eraseDups

/-- The numbers are the places of the logical names. -/
theorem Document.ids_ownCatalog (doc : Document) :
    doc.ownCatalog.ids = doc.logicalNames.zipIdx ∧ doc.logicalNames.Nodup := by
  obtain ⟨-, ⟨hdense, hsights⟩, hmatches⟩ := doc.run_catalog MessageIds.numbers_empty
  rw [List.nil_append] at hsights
  change doc.ownCatalog.Matches doc _ at hmatches
  constructor
  · rw [hmatches.ids_eq, MessageIds.toList, hdense.placed, hsights]
    rfl
  · have hdiffer := hdense.differ
    rw [hsights] at hdiffer
    exact hdiffer

/-- Every place is that of a name. -/
theorem exists_listed (names : List String) {i : Nat} (h : i < names.length) :
    ∃ name, (name, i) ∈ names.zipIdx := by
  refine ⟨names[i], ?_⟩
  rw [List.mk_mem_zipIdx_iff_getElem?]
  exact List.getElem?_eq_getElem h

theorem lt_of_listed {name : String} {i : Nat} (h : (name, i) ∈ names.zipIdx) :
    i < names.length := by
  rw [List.mk_mem_zipIdx_iff_getElem?] at h
  exact (List.getElem?_eq_some_iff.1 h).1

theorem same_place_iff {name other : String} {i j : Nat} (hdiffer : names.Nodup)
    (hi : (name, i) ∈ names.zipIdx) (hj : (other, j) ∈ names.zipIdx) : i = j ↔ name = other := by
  have hnames : (⟨names.zipIdx⟩ : MessageIds).names = names := List.zipIdx_map_fst 0 names
  have hdense : (⟨names.zipIdx⟩ : MessageIds).Dense := ⟨hnames.symm ▸ hdiffer, by rw [hnames]⟩
  exact hdense.same_number_iff_same_name hi hj

/-- The places of at most 256 names are the numbers of a byte. -/
theorem places_fit_iff :
    (∀ name i, (name, i) ∈ names.zipIdx → i ≤ 255) ↔ names.length ≤ 256 := by
  constructor
  · intro hfit
    by_contra hmany
    obtain ⟨name, hlisted⟩ := exists_listed names (i := 256) (by omega)
    exact absurd (hfit name 256 hlisted) (by decide)
  · intro hfew name i hlisted
    have hlt := lt_of_listed hlisted
    omega

/-- Different names have places of different last bytes when there are at most 256, and only
then. -/
theorem bytes_differ_iff (hdiffer : names.Nodup) :
    (∀ name i other j, (name, i) ∈ names.zipIdx → (other, j) ∈ names.zipIdx → name ≠ other →
      UInt8.ofNat i ≠ UInt8.ofNat j) ↔ names.length ≤ 256 := by
  constructor
  · intro hbytes
    by_contra hmany
    -- The first place and the one 256 further on have the same last byte.
    obtain ⟨first, hfirst⟩ := exists_listed names (i := 0) (by omega)
    obtain ⟨further, hfurther⟩ := exists_listed names (i := 256) (by omega)
    refine hbytes first 0 further 256 hfirst hfurther (fun hsame => ?_) rfl
    subst hsame
    exact absurd ((same_place_iff hdiffer hfirst hfurther).2 rfl) (by decide)
  · intro hfew name i other j hi hj hother hsame
    have hbyte := congrArg UInt8.toNat hsame
    have hlti := lt_of_listed hi
    have hltj := lt_of_listed hj
    rw [UInt8.toNat_ofNat', UInt8.toNat_ofNat', Nat.mod_eq_of_lt (by omega),
      Nat.mod_eq_of_lt (by omega)] at hbyte
    exact hother ((same_place_iff hdiffer hi hj).1 hbyte)

/-! ## Many messages -/

/-- What stands before an ending is found. -/
theorem stem?_append (name ending : List Char) : stem? (name ++ ending) ending = some name := by
  unfold stem?
  rw [if_pos (List.isSuffixOf_iff_suffix.2 (List.suffix_append name ending)), List.length_append,
    Nat.add_sub_cancel, List.take_left]

/-- Names that differ are all kept where each is kept once. -/
theorem eraseDups_of_nodup (h : names.Nodup) : names.eraseDups = names := by
  induction names with
  | nil => rfl
  | cons name names ih =>
    obtain ⟨hnew, hdiffer⟩ := List.nodup_cons.1 h
    have hkept : names.filter (fun other => !other == name) = names := by
      refine List.filter_eq_self.2 fun other hother => ?_
      have hne : other ≠ name := ne_of_mem_of_not_mem hother hnew
      simpa using hne
    rw [List.eraseDups_cons, hkept, ih hdiffer]

namespace Document

/-- A name by a number. -/
def numbered (i : Nat) : String := "M" ++ toString i

/-- A document of that many requests, each with a logical name of its own. -/
def crowd (n : Nat) : Document :=
  ⟨"p", (List.range n).map fun i => ⟨numbered i ++ "Req", some .request, []⟩⟩

theorem toList_numbered (i : Nat) : (numbered i).toList = 'M' :: Nat.toDigits 10 i := by
  simp [numbered]

theorem messageStructs_crowd : (crowd n).messageStructs = (crowd n).structs := by
  refine List.filter_eq_self.2 fun s hs => ?_
  obtain ⟨i, -, rfl⟩ := List.mem_map.1 hs
  simp [isMarker, sameLetters, toList_numbered, crowd]

theorem check_crowd : (crowd n).check = .ok () := by
  unfold Document.check
  rw [Outcome.stop_eq_ok]
  have hpackage : ¬ Text.allBlank "p" = true := by decide
  refine ⟨hpackage, Outcome.forM_eq_ok.2 fun s hs => ?_⟩
  obtain ⟨i, -, rfl⟩ := List.mem_map.1 hs
  unfold StructDef.check
  rw [Outcome.stop_eq_ok]
  refine ⟨?_, rfl⟩
  simp [Text.allBlank, toList_numbered, Text.isBlank]

theorem expressible_crowd : ∀ s ∈ (crowd n).messageStructs, Native.Expressible s := by
  rw [messageStructs_crowd]
  intro s hs
  obtain ⟨i, -, rfl⟩ := List.mem_map.1 hs
  refine ⟨fun htaken => ?_, List.nodup_nil, nofun⟩
  have hlast : ∀ name ∈ Native.ownTypes, name.toList.getLast? ≠ some 'q' := by decide
  refine hlast _ htaken ?_
  rw [String.toList_append]
  exact List.getLast?_append_of_ne_nil _ (List.cons_ne_nil _ _)

theorem logicalNames_crowd : (crowd n).logicalNames = (List.range n).map numbered := by
  have hlogical (i : Nat) :
      StructDef.logicalName ⟨numbered i ++ "Req", some .request, []⟩ = some (numbered i) := by
    have hstem : stem? (numbered i ++ "Req").toList ['R', 'e', 'q'] =
        some ('M' :: Nat.toDigits 10 i) := by
      rw [String.toList_append, toList_numbered]
      exact stem?_append _ _
    unfold StructDef.logicalName
    dsimp only [StructDef.role, Option.getD_some, Role.ending]
    rw [Option.map_some, hstem]
    dsimp only
    rw [← toList_numbered, String.ofList_toList]
  have hdiffer : ((List.range n).map numbered).Nodup := by
    refine List.nodup_range.map fun i j hsame => ?_
    have hdigits := congrArg String.toList hsame
    rw [toList_numbered, toList_numbered] at hdigits
    rw [← Nat.ofDigitChars_ten_toDigits (n := i), (List.cons.inj hdigits).2,
      Nat.ofDigitChars_ten_toDigits]
  unfold logicalNames
  rw [messageStructs_crowd, crowd, List.filterMap_map, ← eraseDups_of_nodup hdiffer]
  refine congrArg List.eraseDups ?_
  rw [← List.filterMap_eq_map]
  exact List.filterMap_congr fun i _ => hlogical i

/-- No struct of a crowd has a field, so the maps in it are narrow. -/
theorem narrowMaps_crowd {d : DocumentLayout} (h : (crowd n).layout = .ok d) : d.NarrowMaps := by
  obtain ⟨shapes, hshapes, rfl⟩ := shaped_of_layout h
  refine narrowMaps_of_lowerable hshapes fun s hs => ?_
  rw [messageStructs_crowd] at hs
  obtain ⟨i, -, rfl⟩ := List.mem_map.1 hs
  exact nofun

theorem generate_crowd (target : Target) : ∃ text, (crowd n).generate target = .ok text := by
  cases target with
  | managed options =>
    obtain ⟨shapes, -, hlayout, hprogram⟩ := shaped_of_check (check_crowd (n := n))
    exact ⟨_, generate_of_check rfl ((hprogram _).2 ⟨narrowMaps_crowd hlayout, rfl⟩)⟩
  | native path =>
    obtain ⟨d, hd, hiff, -⟩ := generate_native_iff_expressible (check_crowd (n := n)) path
    exact (hiff (narrowMaps_crowd hd)).2 expressible_crowd

theorem ids_crowd {i : Nat} (h : i < n) : (numbered i, i) ∈ (crowd n).ownCatalog.ids := by
  rw [(crowd n).ids_ownCatalog.1, logicalNames_crowd, List.mk_mem_zipIdx_iff_getElem?,
    List.getElem?_map, List.getElem?_range h, Option.map_some]

/-! ## The law -/

/-- The numbers in generated code. A checked document has C# code if its maps are narrow, and
whenever it has code in a language the enumeration there gives the logical names their places. These
are numbers of a byte when there are at most 256 logical names, and only then; and only then do
different names keep different numbers where they are cast to bytes. -/
theorem emitted_ids_fit_iff (h : doc.check = .ok ()) :
    (∃ d, doc.layout = .ok d ∧
      (d.NarrowMaps → ∀ options, ∃ text, doc.generate (.managed options) = .ok text)) ∧
    (∀ target text, doc.generate target = .ok text → ∃ p, doc.program = .ok p ∧
      text = Code.render target.indent (target.source doc doc.ownCatalog p) ∧
      Within (target.enumeration doc.ownCatalog) (target.source doc doc.ownCatalog p)) ∧
    doc.ownCatalog.ids = doc.logicalNames.zipIdx ∧
    ((∀ name id, (name, id) ∈ doc.ownCatalog.ids → id ≤ 255) ↔ doc.logicalNames.length ≤ 256) ∧
    ((∀ name id other number, (name, id) ∈ doc.ownCatalog.ids →
      (other, number) ∈ doc.ownCatalog.ids → name ≠ other →
      UInt8.ofNat id ≠ UInt8.ofNat number) ↔ doc.logicalNames.length ≤ 256) := by
  obtain ⟨hids, hdiffer⟩ := doc.ids_ownCatalog
  obtain ⟨shapes, -, hlayout, hprogram⟩ := shaped_of_check h
  refine ⟨⟨_, hlayout, fun hmaps options => ?_⟩, fun target text htext => ?_, hids, ?_, ?_⟩
  · exact ⟨_, generate_of_check rfl ((hprogram _).2 ⟨hmaps, rfl⟩)⟩
  · obtain ⟨p, hp, rfl⟩ := source_of_generate htext
    exact ⟨p, hp, rfl, target.enumeration_within doc doc.ownCatalog p⟩
  · rw [hids]
    exact places_fit_iff
  · rw [hids]
    exact bytes_differ_iff hdiffer

/-- The 256 messages of a crowd are told apart by bytes. -/
theorem a_crowd_of_256_fits :
    (crowd 256).check = .ok () ∧
      (∀ name id, (name, id) ∈ (crowd 256).ownCatalog.ids → id ≤ 255) ∧
      ("M255", 255) ∈ (crowd 256).ownCatalog.ids := by
  obtain ⟨-, -, -, hfit, -⟩ := emitted_ids_fit_iff (check_crowd (n := 256))
  have hlength : (crowd 256).logicalNames.length = 256 := by
    rw [logicalNames_crowd, List.length_map, List.length_range]
  exact ⟨check_crowd, hfit.2 (Nat.le_of_eq hlength), ids_crowd (Nat.lt_succ_self 255)⟩

/-- Of 257 messages, which are accepted and have code in both languages, the last has a number that
is none of a byte, and the byte it is cast to is that of the first. -/
theorem the_last_of_257_is_taken_for_the_first :
    let doc := crowd 257
    doc.check = .ok () ∧
      (∀ target, ∃ p, doc.generate target =
          .ok (Code.render target.indent (target.source doc doc.ownCatalog p)) ∧
        Within (target.enumeration doc.ownCatalog) (target.source doc doc.ownCatalog p)) ∧
      ("M0", 0) ∈ doc.ownCatalog.ids ∧ ("M256", 256) ∈ doc.ownCatalog.ids ∧
      ¬ 256 ≤ 255 ∧ UInt8.ofNat 256 = UInt8.ofNat 0 := by
  intro doc
  refine ⟨check_crowd, fun target => ?_, ids_crowd (Nat.succ_pos 256),
    ids_crowd (Nat.lt_succ_self 256), by decide, rfl⟩
  obtain ⟨text, htext⟩ := generate_crowd (n := 257) target
  obtain ⟨p, -, rfl⟩ := source_of_generate htext
  exact ⟨p, htext, target.enumeration_within doc doc.ownCatalog p⟩

end Document

end WireSchema
