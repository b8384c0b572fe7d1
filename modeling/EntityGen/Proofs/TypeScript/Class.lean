import EntityGen.Proofs.Transfer
import EntityGen.Proofs.TypeScript.Member
import EntityGen.TypeScript.Transfer

/-! Which members the generated classes declare and with which types, and which members their
projections assign. The models of a schema that is read may repeat a name in three ways only: a
relationship is called like a field, or a member like the constructor, or like one of the two
projections. -/

namespace EntityGen

namespace TypeScript

/-- The indentation of the members of a class. -/
def memberIndent : String := "  "

/-- The indentation of what a projection assigns. -/
def assignedIndent : String := "      "

def constructorName : String := "constructor"

/-- How the lines start that name something and are no members. They stand at the margin, or deeper
than the members. -/
def openings : List String :=
  ["import type ", "import ", "export class ", "export type ", "    return new "]

/-- The lines that are the same in every class. -/
def commonLines : List String :=
  ["", "    Object.assign(this, data)", "    return " ++ openBrace, "    " ++ closeBrace ++ ")",
    "    " ++ closeBrace, "  " ++ closeBrace, closeBrace]

/-! ### Lines with a key -/

/-- No name goes on with a mark that stands behind a key. -/
theorem not_isNameChar_mark : ∀ mark ∈ [": ", "(", "(): "],
    (mark.toList.head?.any fun c => !isNameChar c) = true := by
  simp [isNameChar]

theorem presence_mem (required : Bool) : presence required ∈ ["!", "?"] := by
  cases required <;> simp [presence]

/-- The type of a wire value or group. -/
def wireType : WireMember → String
  | .flat _ type _ => type.typeScript
  | .group _ _ properties => braced (String.intercalate "; " (properties.map propertyType))

theorem typed_fieldLine (field : EntityField) :
    Typed memberIndent field.name field.type.typeScript (fieldLine field) := by
  refine ⟨presence field.required, presence_mem field.required, ?_⟩
  simp only [fieldLine, memberIndent, String.append_assoc]

theorem typed_relationLine (suffix : String) (relation : Relation) :
    Typed memberIndent relation.name (relationType suffix relation) (relationLine suffix relation) := by
  refine ⟨"?", by simp, ?_⟩
  have hMark : "?: " = "?" ++ ": " := by decide
  simp only [relationLine, memberIndent, hMark, String.append_assoc]

theorem typed_wireLine (member : WireMember) :
    Typed memberIndent member.slot.1 (wireType member) (wireLine member) := by
  cases member with
  | flat name type required =>
    refine ⟨presence required, presence_mem required, ?_⟩
    simp only [wireLine, wireType, WireMember.slot, memberIndent, String.append_assoc]
  | group key required properties =>
    refine ⟨presence required, presence_mem required, ?_⟩
    simp only [wireLine, wireType, WireMember.slot, memberIndent, String.append_assoc]

theorem keyed_projectionLine (projection : Projection) :
    Keyed assignedIndent.toList projection.field (projectionLine projection) := by
  have hLine : projectionLine projection = assignedIndent ++ (propertyKey projection.field ++
      (": " ++ (wireAccess projection.source ++ ","))) := by
    simp only [projectionLine, assignedIndent, String.append_assoc]
  rw [hLine]
  exact keyed_append (not_isNameChar_mark _ (by simp)) projection.field _

theorem keyed_relationProjectionLine (method : String) (relation : Relation) :
    Keyed assignedIndent.toList relation.name (relationProjectionLine method relation) := by
  obtain ⟨projected, hLine⟩ : ∃ projected, relationProjectionLine method relation =
      assignedIndent ++ (propertyKey relation.name ++ (": " ++ projected)) := by
    simp only [relationProjectionLine, assignedIndent, String.append_assoc]
    exact ⟨_, rfl⟩
  rw [hLine]
  exact keyed_append (not_isNameChar_mark _ (by simp)) relation.name _

/-! ### Lines without a key -/

theorem mem_addNew {lines : List String} {line other : String} (h : other ∈ addNew lines line) :
    other ∈ lines ∨ other = line := by
  rw [addNew] at h
  split at h
  · exact Or.inl h
  · simpa using h

theorem exists_of_mem_relationImports {owner : ModelNames} {suffix file line : String}
    {relations : List Relation} (h : line ∈ relationImports owner suffix file relations) :
    ∃ target, line = relationImport suffix file target := by
  have hFold (lines : List String) (hLines : ∀ line ∈ lines, ∃ target,
      line = relationImport suffix file target) :
      ∀ line ∈ (relations.filter (·.target.canonical != owner.canonical)).foldl
        (fun lines relation => addNew lines (relationImport suffix file relation.target)) lines,
        ∃ target, line = relationImport suffix file target := by
    induction relations.filter (·.target.canonical != owner.canonical) generalizing lines with
    | nil => exact hLines
    | cons relation rest ih =>
      refine ih _ fun line hLine => ?_
      rcases mem_addNew hLine with hOld | rfl
      · exact hLines line hOld
      · exact ⟨relation.target, rfl⟩
  exact hFold [] (by simp) line h

theorem relationImport_start (suffix file : String) (target : ModelNames) :
    ∃ more, relationImport suffix file target = "import type " ++ more := by
  delta relationImport
  simp only [String.append_assoc]
  exact ⟨_, rfl⟩

theorem not_keyed_opening {start : String} (h : start ∈ openings) (more name : String) :
    ¬Keyed memberIndent.toList name (start ++ more) := by
  have hStarts : ∀ start ∈ openings, mayHaveKey memberIndent.toList start.toList = false := by
    simp [openings, mayHaveKey, memberIndent, isNameChar]
  exact not_keyed_append (hStarts start h) more name

theorem declares_relationImports (owner : ModelNames) (suffix file : String)
    (relations : List Relation) :
    Declares memberIndent.toList (relationImports owner suffix file relations) [] := by
  refine Declares.none fun line hLine name => ?_
  obtain ⟨target, rfl⟩ := exists_of_mem_relationImports hLine
  obtain ⟨more, hStart⟩ := relationImport_start suffix file target
  rw [hStart]
  exact not_keyed_opening (by simp [openings]) more name

theorem declares_common {lines : List String} (h : ∀ line ∈ lines, line ∈ commonLines) :
    Declares memberIndent.toList lines [] := by
  have hLines : ∀ line ∈ commonLines,
      mayHaveKey memberIndent.toList (lineChars line) = false := by
    simp [commonLines, mayHaveKey, memberIndent, lineChars, openBrace, closeBrace, isNameChar]
  exact .none fun line hLine name =>
    not_keyed (hLines line (h line hLine)) (List.append_nil _).symm name

theorem declares_opening {start : String} (h : start ∈ openings) (more : String) :
    Declares memberIndent.toList [start ++ more] [] :=
  .other (not_keyed_opening h more) .nil

/-- The members that every class has are identifiers, so that they are not quoted. -/
theorem propertyKey_fixed {name : String} (h : name ∈ [constructorName, entityMethod, plainMethod]) :
    propertyKey name = name := by
  have hIdentifier : ∀ name ∈ [constructorName, entityMethod, plainMethod],
      isIdentifier name = true := by
    simp [isIdentifier, constructorName, entityMethod, plainMethod]
  rw [propertyKey, if_pos (hIdentifier name h)]

/-! ### Lines without types -/

/-- Lines of a class declare these names, and give no member a type. -/
structure Untyped (lines names : List String) : Prop where
  declares : Declares memberIndent.toList lines names
  untyped : ∀ member type, ¬TypedIn memberIndent lines member type

namespace Untyped

variable {lines more names others : List String}

theorem nothing (h : Declares memberIndent.toList lines []) : Untyped lines [] :=
  ⟨h, fun _ _ => TypedIn.none h⟩

theorem append (h : Untyped lines names) (hMore : Untyped more others) :
    Untyped (lines ++ more) (names ++ others) := by
  refine ⟨h.declares.append hMore.declares, fun member type hTyped => ?_⟩
  rcases TypedIn.append_iff.mp hTyped with hTyped | hTyped
  · exact h.untyped member type hTyped
  · exact hMore.untyped member type hTyped

/-- Behind the name of a member that every class has stand the parameters, and no type. -/
theorem fixed {name mark : String} (h : name ∈ [constructorName, entityMethod, plainMethod])
    (hMark : mark ∈ ["(", "(): "]) (more : String) :
    Untyped [memberIndent ++ (name ++ (mark ++ more))] [name] := by
  have hKeyed : Keyed memberIndent.toList name
      (memberIndent ++ (propertyKey name ++ (mark ++ more))) :=
    keyed_append (not_isNameChar_mark mark (List.mem_cons_of_mem _ hMark)) name more
  rw [propertyKey_fixed h] at hKeyed
  refine ⟨.member hKeyed .nil, ?_⟩
  rintro member type ⟨line, hLine, hTyped⟩
  obtain rfl := List.mem_singleton.mp hLine
  obtain rfl := hTyped.keyed.name_eq hKeyed
  obtain ⟨presence, hPresence, hSame⟩ := hTyped
  rw [propertyKey_fixed h, String.append_right_inj, String.append_right_inj] at hSame
  have hChars := congrArg String.toList hSame
  simp only [List.mem_cons, List.not_mem_nil, or_false] at hPresence hMark
  rcases hPresence with rfl | rfl <;> rcases hMark with rfl | rfl <;> simp at hChars

end Untyped

theorem untyped_constructorLines (className : String) :
    Untyped (constructorLines className) [constructorName] := by
  have hOpening : "  constructor(data: Partial<" ++ className ++ "> = " ++ openBrace ++
      closeBrace ++ ") " ++ openBrace = memberIndent ++ (constructorName ++ ("(" ++
        ("data: Partial<" ++ className ++ "> = " ++ openBrace ++ closeBrace ++ ") " ++
          openBrace))) := by
    have hStart : "  constructor(data: Partial<" =
        memberIndent ++ (constructorName ++ ("(" ++ "data: Partial<")) := by
      simp [memberIndent, constructorName]
    rw [hStart]
    simp only [String.append_assoc]
  rw [constructorLines, hOpening]
  exact (Untyped.fixed (by simp) (by simp) _).append
    (.nothing (declares_common (by simp [commonLines])))

theorem untyped_spacing (needed : Bool) : Untyped (spacing needed) [] :=
  .nothing (declares_common (by cases needed <;> simp [spacing, commonLines]))

theorem untyped_relationImports (owner : ModelNames) (suffix file : String)
    (relations : List Relation) : Untyped (relationImports owner suffix file relations) [] :=
  .nothing (declares_relationImports owner suffix file relations)

/-! ### Classes of entities -/

theorem untyped_modelHead (names : ModelNames) :
    Untyped ["export class " ++ modelClass names ++ " " ++ openBrace] [] := by
  rw [String.append_assoc, String.append_assoc]
  exact .nothing (declares_opening (by simp [openings]) _)

theorem untyped_modelTail (names : ModelNames) :
    Untyped [closeBrace, "",
      "export type " ++ plainClass names ++ " = Omit<" ++ modelClass names ++ ", 'constructor'>"]
      [] := by
  have hClosed : Declares memberIndent.toList [closeBrace, ""] [] :=
    declares_common (by simp [commonLines])
  rw [String.append_assoc, String.append_assoc, String.append_assoc]
  exact .nothing (hClosed.append (declares_opening (by simp [openings]) _))

theorem declares_modelLines (entity : Entity) :
    Declares memberIndent.toList (modelLines entity)
      (entity.fields.map (·.name) ++ entity.relations.map (·.name) ++ [constructorName]) := by
  have hImports := untyped_relationImports entity.names "Model" "model" entity.relations
  have hFields := Declares.map (fun field => (typed_fieldLine field).keyed) entity.fields
  have hRelations :=
    Declares.map (fun relation => (typed_relationLine "Model" relation).keyed) entity.relations
  have hNames : entity.fields.map (·.name) ++ entity.relations.map (·.name) ++ [constructorName] =
      [] ++ [] ++ [] ++ entity.fields.map (·.name) ++ entity.relations.map (·.name) ++ [] ++
        [constructorName] ++ [] := by simp
  rw [hNames]
  exact (hImports.append (untyped_spacing _)).append (untyped_modelHead _) |>.declares
    |>.append hFields |>.append hRelations |>.append (untyped_spacing _).declares
    |>.append (untyped_constructorLines _).declares |>.append (untyped_modelTail _).declares

/-- The members with types are the fields, with their primitive types, and the relations. -/
theorem typedIn_modelLines_iff (entity : Entity) {member type : String} :
    TypedIn memberIndent (modelLines entity) member type ↔
      (∃ field ∈ entity.fields, field.name = member ∧ field.type.typeScript = type) ∨
        ∃ relation ∈ entity.relations,
          relation.name = member ∧ relationType "Model" relation = type := by
  have hImports := untyped_relationImports entity.names "Model" "model" entity.relations
  simp only [modelLines, TypedIn.append_iff, TypedIn.map_iff typed_fieldLine,
    TypedIn.map_iff (typed_relationLine "Model"), hImports.untyped, (untyped_spacing _).untyped,
    (untyped_modelHead _).untyped, (untyped_constructorLines _).untyped,
    (untyped_modelTail _).untyped, false_or, or_false]

/-! ### Classes of transfer objects -/

theorem declares_projectionLines (method : String) (transfer : Transfer) :
    Declares assignedIndent.toList (projectionLines method transfer)
      (transfer.projections.map (·.field) ++ transfer.relations.map (·.name)) :=
  (Declares.map keyed_projectionLine transfer.projections).append
    (Declares.map (keyed_relationProjectionLine method) transfer.relations)

/-- What a projection assigns stands too deep to be a member of the class. -/
theorem projectionLines_noMember (method : String) (transfer : Transfer) :
    Declares memberIndent.toList (projectionLines method transfer) [] := by
  have hDeep : mayHaveKey memberIndent.toList assignedIndent.toList = false := by
    simp [mayHaveKey, memberIndent, assignedIndent, isNameChar]
  refine Declares.none fun line hLine name => ?_
  rcases List.mem_append.mp hLine with h | h
  · obtain ⟨projection, -, rfl⟩ := List.mem_map.mp h
    obtain ⟨c, rest, -, hChars⟩ := keyed_projectionLine projection
    exact not_keyed hDeep hChars name
  · obtain ⟨relation, -, rfl⟩ := List.mem_map.mp h
    obtain ⟨c, rest, -, hChars⟩ := keyed_relationProjectionLine method relation
    exact not_keyed hDeep hChars name

theorem untyped_transferHead (names : ModelNames) :
    Untyped ["import " ++ braced (modelClass names ++ ", type " ++ plainClass names) ++
        " from './" ++ names.stem ++ ".model'", "",
      "export class " ++ transferClass names ++ " " ++ openBrace] [] := by
  have hEmpty : Declares memberIndent.toList [""] [] := declares_common (by simp [commonLines])
  simp only [String.append_assoc]
  exact .nothing ((declares_opening (by simp [openings]) _).append
    (hEmpty.append (declares_opening (by simp [openings]) _)))

theorem untyped_entityHead (names : ModelNames) :
    Untyped ["", "  " ++ entityMethod ++ "(): " ++ modelClass names ++ " " ++ openBrace,
      "    return new " ++ modelClass names ++ "(" ++ openBrace] [entityMethod] := by
  have hEmpty : Untyped [""] [] := .nothing (declares_common (by simp [commonLines]))
  simp only [String.append_assoc]
  exact hEmpty.append ((Untyped.fixed (by simp) (by simp) _).append
    (.nothing (declares_opening (by simp [openings]) _)))

theorem untyped_plainHead (names : ModelNames) :
    Untyped ["    " ++ closeBrace ++ ")", "  " ++ closeBrace, "",
      "  " ++ plainMethod ++ "(): " ++ plainClass names ++ " " ++ openBrace,
      "    return " ++ openBrace] [plainMethod] := by
  have hClosed : Untyped ["    " ++ closeBrace ++ ")", "  " ++ closeBrace, ""] [] :=
    .nothing (declares_common (by simp [commonLines]))
  have hReturn : Untyped ["    return " ++ openBrace] [] :=
    .nothing (declares_common (by simp [commonLines]))
  simp only [String.append_assoc] at hClosed hReturn ⊢
  exact hClosed.append ((Untyped.fixed (by simp) (by simp) _).append hReturn)

theorem untyped_transferTail : Untyped ["    " ++ closeBrace, "  " ++ closeBrace, closeBrace] [] :=
  .nothing (declares_common (by simp [commonLines]))

theorem declares_transferLines (transfer : Transfer) :
    Declares memberIndent.toList (transferLines transfer)
      (transfer.members.map (·.slot.1) ++ transfer.relations.map (·.name) ++
        [constructorName, entityMethod, plainMethod]) := by
  have hImports := untyped_relationImports transfer.names "DTO" "dto" transfer.relations
  have hWire := Declares.map (fun member => (typed_wireLine member).keyed) transfer.members
  have hRelations :=
    Declares.map (fun relation => (typed_relationLine "DTO" relation).keyed) transfer.relations
  -- Each part of the file declares its share of the names, in the order of the parts.
  have hNames : transfer.members.map (·.slot.1) ++ transfer.relations.map (·.name) ++
        [constructorName, entityMethod, plainMethod] =
      [] ++ [] ++ transfer.members.map (·.slot.1) ++ transfer.relations.map (·.name) ++ [] ++
        [constructorName] ++ [entityMethod] ++ [] ++ [plainMethod] ++ [] ++ [] := by simp
  rw [hNames]
  exact (hImports.append (untyped_transferHead _)).declares |>.append hWire |>.append hRelations
    |>.append (untyped_spacing _).declares |>.append (untyped_constructorLines _).declares
    |>.append (untyped_entityHead _).declares
    |>.append (projectionLines_noMember entityMethod transfer)
    |>.append (untyped_plainHead _).declares
    |>.append (projectionLines_noMember plainMethod transfer)
    |>.append untyped_transferTail.declares

/-- The members with types are the values and groups of the wire object, and the relations. -/
theorem typedIn_transferLines_iff (transfer : Transfer) {member type : String} :
    TypedIn memberIndent (transferLines transfer) member type ↔
      (∃ wire ∈ transfer.members, wire.slot.1 = member ∧ wireType wire = type) ∨
        ∃ relation ∈ transfer.relations,
          relation.name = member ∧ relationType "DTO" relation = type := by
  have hImports := untyped_relationImports transfer.names "DTO" "dto" transfer.relations
  have hProjections (method : String) :
      ¬TypedIn memberIndent (projectionLines method transfer) member type :=
    TypedIn.none (projectionLines_noMember method transfer)
  simp only [transferLines, TypedIn.append_iff, TypedIn.map_iff typed_wireLine,
    TypedIn.map_iff (typed_relationLine "DTO"), hImports.untyped, (untyped_transferHead _).untyped,
    (untyped_spacing _).untyped, (untyped_constructorLines _).untyped,
    (untyped_entityHead _).untyped, (untyped_plainHead _).untyped, hProjections,
    untyped_transferTail.untyped, false_or, or_false]

/-! ### Names that repeat -/

theorem nodup_append_iff {names others fixed : List String} (hNames : names.Nodup)
    (hOthers : others.Nodup) (hFixed : fixed.Nodup) :
    (names ++ others ++ fixed).Nodup ↔
      (∀ name ∈ names, name ∉ others) ∧ ∀ name ∈ fixed, name ∉ names ∧ name ∉ others := by
  simp only [List.nodup_append, hNames, hOthers, hFixed, true_and, List.mem_append]
  constructor
  · rintro ⟨hApart, hNew⟩
    refine ⟨fun name hName hOther => hApart name hName name hOther rfl, fun name hName => ?_⟩
    exact ⟨fun h => hNew name (Or.inl h) name hName rfl,
      fun h => hNew name (Or.inr h) name hName rfl⟩
  · rintro ⟨hApart, hNew⟩
    refine ⟨fun name hName other hOther hSame => hApart name hName (hSame ▸ hOther), ?_⟩
    rintro name hName other hOther rfl
    exact hName.elim (hNew name hOther).1 (hNew name hOther).2

end TypeScript

open TypeScript

namespace Model

/-- A relationship of the model is called like one of its fields. -/
def SharesName (model : Model) : Prop :=
  ∃ name ∈ model.mappings.map (·.1), name ∈ model.relationships.map (·.1)

/-- A field has its place in a member of the wire object with this name. -/
def HasWireMember (model : Model) (wire : String) : Prop :=
  ∃ name field, (name, field) ∈ model.mappings ∧ (field.place name).slot.1 = wire

theorem entity_fieldNames (name : String) (model : Model) :
    (Entity.ofModel name model).fields.map (·.name) = model.mappings.map (·.1) := by
  simp [Entity.ofModel]

theorem entity_relationNames (name : String) (model : Model) :
    (Entity.ofModel name model).relations.map (·.name) = model.relationships.map (·.1) := by
  simp [Entity.ofModel, relations]

namespace Checked

variable {model : Model} (hChecked : model.Checked) (name : String)
include hChecked

theorem modelLines_once_iff :
    DeclaresOnce memberIndent.toList (modelLines (.ofModel name model)) ↔
      ¬model.SharesName ∧ constructorName ∉ model.mappings.map (·.1) ∧
        constructorName ∉ model.relationships.map (·.1) := by
  rw [(declares_modelLines _).once_iff, entity_fieldNames, entity_relationNames,
    nodup_append_iff hChecked.fields hChecked.relations (List.nodup_singleton _)]
  simp only [SharesName, not_exists, not_and, List.forall_mem_singleton]

/-- Wire members and relationships have different names, so that only the fixed names can repeat. -/
theorem transferLines_once_iff :
    DeclaresOnce memberIndent.toList (transferLines (.ofModel name model)) ↔
      ∀ fixed ∈ [constructorName, entityMethod, plainMethod],
        ¬model.HasWireMember fixed ∧ fixed ∉ model.relationships.map (·.1) := by
  have hMembers : (Transfer.ofModel name model).members.map (·.slot.1) =
      (Transfer.slots (Transfer.ofFields model.mappings)).map (·.1) := by
    rw [Transfer.slots, List.map_map]
    rfl
  have hRelations : (Transfer.ofModel name model).relations.map (·.name) =
      model.relationships.map (·.1) := entity_relationNames name model
  have hMem (wire : String) : wire ∈ (Transfer.slots (Transfer.ofFields model.mappings)).map (·.1) ↔
      model.HasWireMember wire := by
    simp only [List.mem_map, Transfer.mem_slots_ofFields, HasWireMember]
    constructor
    · rintro ⟨_, ⟨a, field, hField, rfl⟩, hName⟩
      exact ⟨a, field, hField, hName⟩
    · rintro ⟨a, field, hField, hName⟩
      exact ⟨_, ⟨a, field, hField, rfl⟩, hName⟩
  have hApart : ∀ wire ∈ (Transfer.slots (Transfer.ofFields model.mappings)).map (·.1),
      wire ∉ model.relationships.map (·.1) := by
    intro wire hWire hRelation
    obtain ⟨a, field, hField, hPlace⟩ := (hMem wire).mp hWire
    obtain ⟨⟨relation, relationship⟩, hRelationship, rfl⟩ := List.mem_map.mp hRelation
    exact hChecked.slot_ne_relationship hField hRelationship hPlace
  rw [(declares_transferLines _).once_iff, hMembers, hRelations,
    nodup_append_iff hChecked.names_nodup hChecked.relations
      (by simp [constructorName, entityMethod, plainMethod])]
  rw [and_iff_right hApart]
  simp only [hMem]

/-- A projection assigns the members of the entity, and none of them twice unless a relationship is
called like a field. -/
theorem projectionLines_once_iff (method : String) :
    Declares assignedIndent.toList (projectionLines method (.ofModel name model))
        ((Entity.ofModel name model).fields.map (·.name) ++
          (Entity.ofModel name model).relations.map (·.name)) ∧
      (DeclaresOnce assignedIndent.toList (projectionLines method (.ofModel name model)) ↔
        ¬model.SharesName) := by
  have hLines := declares_projectionLines method (.ofModel name model)
  have hFields : (Transfer.ofModel name model).projections.map (·.field) =
      (Entity.ofModel name model).fields.map (·.name) := by
    simp [Transfer.ofModel, Entity.ofModel]
  rw [hFields] at hLines
  have hRelations : (Transfer.ofModel name model).relations.map (·.name) =
      (Entity.ofModel name model).relations.map (·.name) := rfl
  rw [hRelations] at hLines
  refine ⟨hLines, ?_⟩
  have hNodup := nodup_append_iff hChecked.fields hChecked.relations List.nodup_nil
  rw [List.append_nil] at hNodup
  rw [hLines.once_iff, entity_fieldNames, entity_relationNames, hNodup]
  simp [SharesName]

end Checked

end Model

namespace Schema

/-- In a schema that is read, the class of an entity repeats no member unless a relationship is
called like a field or one of both like the constructor; the class of a transfer object repeats no
member unless a member of the wire object or a relationship is called like the constructor or a
projection; and the projections assign each member of the entity once unless a relationship is
called like a field. -/
theorem classes_declareOnce_iff {value : Yaml.Value} {schema : Schema}
    (hRead : ofValue value = .ok schema) {name : String} {model : Model}
    (hModel : (name, model) ∈ schema.models) :
    (DeclaresOnce memberIndent.toList (modelLines (.ofModel name model)) ↔
      ¬model.SharesName ∧ constructorName ∉ model.mappings.map (·.1) ∧
        constructorName ∉ model.relationships.map (·.1)) ∧
    (DeclaresOnce memberIndent.toList (transferLines (.ofModel name model)) ↔
      ∀ fixed ∈ [constructorName, entityMethod, plainMethod],
        ¬model.HasWireMember fixed ∧ fixed ∉ model.relationships.map (·.1)) ∧
    ∀ method ∈ [entityMethod, plainMethod],
      Declares assignedIndent.toList (projectionLines method (.ofModel name model))
          ((Entity.ofModel name model).fields.map (·.name) ++
            (Entity.ofModel name model).relations.map (·.name)) ∧
        (DeclaresOnce assignedIndent.toList (projectionLines method (.ofModel name model)) ↔
          ¬model.SharesName) := by
  have hChecked := checked_of_mem_models hRead hModel
  exact ⟨hChecked.modelLines_once_iff name, hChecked.transferLines_once_iff name,
    fun method _ => hChecked.projectionLines_once_iff name method⟩

/-- A document with a model that has a field and a relationship of one name, where the field has
another name on the wire, and a field that is called like a projection. -/
def sharedNames : Yaml.Value :=
  .map [(.str "User", .map [(.str "type", .str "model"),
    (.str "mappings", .map [
      (.str "posts", .map [(.str "type", .str "string"), (.str "map", .str "titles")]),
      (.str "toEntity", .map [(.str "type", .str "string")])]),
    (.str "relationships", .map [
      (.str "posts", .map [(.str "type", .str "User[]")])])])]

/-- The model of that document. -/
def sharingModel : Model where
  mappings := [("posts", { type := "string", map := some "titles" }),
    ("toEntity", { type := "string" })]
  relationships := [("posts", { type := "User[]" })]

/-- The document is read, and both classes of its model repeat a member, as do its projections. -/
theorem classes_repeat :
    ∃ schema, ofValue sharedNames = .ok schema ∧ ("User", sharingModel) ∈ schema.models ∧
      ¬DeclaresOnce memberIndent.toList (modelLines (.ofModel "User" sharingModel)) ∧
      ¬DeclaresOnce memberIndent.toList (transferLines (.ofModel "User" sharingModel)) ∧
      ¬DeclaresOnce assignedIndent.toList
        (projectionLines plainMethod (.ofModel "User" sharingModel)) := by
  have hRead : ofValue sharedNames = .ok ⟨[("User", .model sharingModel)]⟩ := rfl
  obtain ⟨hModel, hTransfer, hProjections⟩ :=
    @classes_declareOnce_iff _ _ hRead "User" sharingModel List.mem_cons_self
  have hShares : sharingModel.SharesName := ⟨"posts", by decide, by decide⟩
  refine ⟨_, rfl, List.mem_cons_self, ?_, ?_, ?_⟩
  · rw [hModel]
    exact fun h => h.1 hShares
  · rw [hTransfer]
    intro h
    refine (h entityMethod (by decide)).1 ⟨"toEntity", { type := "string" }, by decide, ?_⟩
    rfl
  · rw [(hProjections plainMethod (by decide)).2]
    exact fun h => h hShares

end Schema

end EntityGen
