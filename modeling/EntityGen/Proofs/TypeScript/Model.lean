import EntityGen.Proofs.Schema.Alike
import EntityGen.Proofs.TypeScript.Text
import EntityGen.TypeScript.Transfer

/-! What the files of a model show of the order of its fields and relationships: all of it. -/

namespace EntityGen

namespace TypeScript

/-- The characters of the line of a field. -/
def fieldChars (row : String × Field) : List Char :=
  lineChars (fieldLine ⟨row.1, row.2.primitive, row.2.required⟩)

/-- The characters of the line of a relationship. -/
def relationshipChars (row : String × Relationship) : List Char :=
  lineChars (relationLine "Model"
    ⟨row.1, Naming.names row.2.target, row.2.isCollection⟩)

theorem fieldChars_keyFirst : KeyFirst [' ', ' '] fieldChars := by
  intro row
  rcases hRequired : row.2.required with _ | _
  · exact ⟨'?', _, by decide, by
      simp [fieldChars, lineChars, fieldLine, hRequired, presence]; rfl⟩
  · exact ⟨'!', _, by decide, by
      simp [fieldChars, lineChars, fieldLine, hRequired, presence]; rfl⟩

theorem relationshipChars_keyFirst : KeyFirst [' ', ' '] relationshipChars := by
  intro row
  exact ⟨'?', _, by decide, by simp [relationshipChars, lineChars, relationLine]; rfl⟩

/-- The characters of an entity's file before its fields. -/
def modelHead (entity : Entity) : List Char :=
  let imports := relationImports entity.names "Model" "model" entity.relations
  (imports ++ spacing (!imports.isEmpty) ++
    ["export class " ++ modelClass entity.names ++ " " ++ openBrace]).flatMap lineChars

/-- The characters of an entity's file after its relations. -/
def modelTail (names : ModelNames) (hasMembers : Bool) : List Char :=
  (spacing hasMembers ++ constructorLines (modelClass names) ++
    [closeBrace, "", "export type " ++ plainClass names ++ " = Omit<" ++ modelClass names ++
      ", 'constructor'>"]).flatMap lineChars

theorem modelText_toList (name : String) (model : Model) :
    (modelText (Entity.ofModel name model)).toList =
      modelHead (Entity.ofModel name model) ++
        (model.mappings.flatMap fieldChars ++
          (model.relationships.flatMap relationshipChars ++
            modelTail (Naming.names name)
              (!model.mappings.isEmpty || !model.relationships.isEmpty))) := by
  rw [modelText, fileText_toList, modelLines, modelHead, modelTail]
  simp only [Entity.ofModel, Model.relations, List.flatMap_append, List.map_map, List.flatMap_map,
    List.isEmpty_map, List.append_assoc]
  rfl

variable {model other : Model}

/-- The class of an entity shows the order of its fields and relationships. -/
theorem sameOrder_of_modelText_eq (h : model.Rearranged other) {name : String}
    (hText : modelText (Entity.ofModel name model) = modelText (Entity.ofModel name other)) :
    model.SameOrder other := by
  have hChars := congrArg String.toList hText
  rw [modelText_toList, modelText_toList] at hChars
  have hFieldLength : (model.mappings.flatMap fieldChars).length = _ :=
    h.mappings.length_flatMap fun _ _ _ h => h ▸ rfl
  have hLength : (model.relationships.flatMap relationshipChars).length = _ :=
    h.relationships.length_flatMap fun _ _ _ h => h ▸ rfl
  have hMembers : (!model.mappings.isEmpty || !model.relationships.isEmpty) =
      (!other.mappings.isEmpty || !other.relationships.isEmpty) := by
    rw [h.mappings.isEmpty_eq, h.relationships.isEmpty_eq]
  rw [hMembers] at hChars
  -- both files end in the same lines, so that fields and relationships can be cut out by length
  obtain ⟨-, hMembersText⟩ := List.append_inj' hChars (by
    simp only [List.length_append, hFieldLength, hLength])
  obtain ⟨hFields, hRest⟩ := List.append_inj hMembersText hFieldLength
  obtain ⟨hRelationships, -⟩ := List.append_inj hRest hLength
  exact ⟨((fieldChars_keyFirst.flatMap_eq_iff h.mappings fun _ _ _ h => h ▸ rfl).mp hFields).1,
    ((relationshipChars_keyFirst.flatMap_eq_iff h.relationships fun _ _ _ h => h ▸ rfl).mp
      hRelationships).1⟩

/-- Of a model that is rearranged, the files are the same if and only if the order is. -/
theorem texts_eq_iff (h : model.Rearranged other) (name : String) :
    (modelText (Entity.ofModel name model) = modelText (Entity.ofModel name other) ∧
        transferText (Transfer.ofModel name model) = transferText (Transfer.ofModel name other)) ↔
      model.SameOrder other := by
  constructor
  · exact fun hTexts => sameOrder_of_modelText_eq h hTexts.1
  · intro hOrder
    rw [h.eq_of_sameOrder hOrder]
    exact ⟨rfl, rfl⟩

end TypeScript

end EntityGen
