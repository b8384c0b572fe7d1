import EntityGen.Proofs.Schema.Alike
import EntityGen.Proofs.Schema.References
import EntityGen.Transfer
import Mathlib.Data.List.Pairwise

/-! Declarations that stand together. A model has no conflict just if any two of its declarations
of one member claim it in one way, and for a field. -/

namespace EntityGen

theorem Claim.compatible_iff {first second : Claim} :
    first.compatible second = true ↔ first = second ∧ second ≠ .relation := by
  simp [Claim.compatible]

/-- Two declarations stand together: they claim different members, or one member in one way. -/
def Declaration.Agrees (first second : Declaration) : Prop :=
  first.wire = second.wire → first.claim = second.claim ∧ second.claim ≠ .relation

namespace Model

theorem firstConflict?_eq_none_iff {claimed rest : List Declaration}
    (hClaimed : claimed.Pairwise fun first second => first.wire ≠ second.wire) :
    firstConflict? claimed rest = none ↔
      (∀ c ∈ claimed, ∀ d ∈ rest, c.Agrees d) ∧ rest.Pairwise Declaration.Agrees := by
  induction rest generalizing claimed with
  | nil => simp [firstConflict?]
  | cons d rest ih =>
    rw [List.pairwise_cons]
    rcases hFind : claimed.find? (·.wire == d.wire) with _ | other
    · -- The member is new, and its first declaration stands for it from here on.
      have hFree : ∀ c ∈ claimed, c.wire ≠ d.wire := by simpa using hFind
      have hNext : (claimed ++ [d]).Pairwise fun first second => first.wire ≠ second.wire := by
        rw [List.pairwise_append]
        exact ⟨hClaimed, List.pairwise_singleton _ _, by simpa using hFree⟩
      rw [firstConflict?, hFind]
      show firstConflict? (claimed ++ [d]) rest = none ↔ _
      rw [ih hNext]
      constructor
      · rintro ⟨hOld, hRest⟩
        refine ⟨fun c hc e he => ?_, fun e he => hOld d (by simp) e he, hRest⟩
        rcases List.mem_cons.mp he with rfl | he
        · exact fun hWire => absurd hWire (hFree c hc)
        · exact hOld c (by simp [hc]) e he
      · rintro ⟨hOld, hNew, hRest⟩
        refine ⟨fun c hc e he => ?_, hRest⟩
        rcases List.mem_append.mp hc with hc | hc
        · exact hOld c hc e (List.mem_cons_of_mem d he)
        · rw [List.mem_singleton.mp hc]
          exact hNew e he
    · have : Std.Symm fun first second : Declaration => first.wire ≠ second.wire :=
        ⟨fun _ _ => Ne.symm⟩
      have hDistinct := hClaimed.forall
      have hOther : other ∈ claimed := List.mem_of_find?_eq_some hFind
      have hWire : other.wire = d.wire := by simpa using List.find?_some hFind
      rw [firstConflict?, hFind]
      show (if other.claim.compatible d.claim then firstConflict? claimed rest
        else some (.wireConflict d.field d.wire other.field)) = none ↔ _
      by_cases hCompatible : other.claim.compatible d.claim = true
      · rw [if_pos hCompatible, ih hClaimed]
        rw [Claim.compatible_iff] at hCompatible
        constructor
        · rintro ⟨hOld, hRest⟩
          refine ⟨fun c hc e he => ?_, fun e he hSame => ?_, hRest⟩
          · rcases List.mem_cons.mp he with rfl | he
            · intro hSame
              have hOnly : c = other := by
                by_contra hDiffer
                exact hDistinct hc hOther hDiffer (hSame.trans hWire.symm)
              rw [hOnly]
              exact hCompatible
            · exact hOld c hc e he
          · rw [← hCompatible.1]
            exact hOld other hOther e he (hWire.trans hSame)
        · rintro ⟨hOld, -, hRest⟩
          exact ⟨fun c hc e he => hOld c hc e (List.mem_cons_of_mem d he), hRest⟩
      · rw [if_neg hCompatible]
        refine iff_of_false (by simp) fun ⟨hOld, _⟩ => hCompatible ?_
        exact Claim.compatible_iff.mpr (hOld other hOther d (by simp) hWire)

/-- A model has no fault just if none of its fields and relationships has one and the declarations
stand together. -/
theorem fault?_eq_none_iff {model : Model} : model.fault? = none ↔
    (∀ row ∈ model.mappings, fieldFault? row.1 row.2 = none) ∧
      (∀ row ∈ model.relationships, relationshipFault? row.1 row.2 = none) ∧
      model.declarations.Pairwise Declaration.Agrees := by
  rw [fault?, Option.or_eq_none_iff, Option.or_eq_none_iff,
    firstConflict?_eq_none_iff List.Pairwise.nil, List.findSome?_eq_none_iff,
    List.findSome?_eq_none_iff]
  simp

/-- What reading a schema assures of each of its models: no two fields and no two relationships have
one name, and the declarations stand together. -/
structure Checked (model : Model) : Prop where
  fields : (model.mappings.map (·.1)).Nodup
  relations : (model.relationships.map (·.1)).Nodup
  agrees : model.declarations.Pairwise Declaration.Agrees

theorem mem_declarations_of_field {model : Model} {name : String} {field : Field}
    (h : (name, field) ∈ model.mappings) : field.declaration name ∈ model.declarations :=
  List.mem_append_left _ (List.mem_map.mpr ⟨_, h, rfl⟩)

theorem mem_declarations_of_relationship {model : Model} {name : String}
    {relationship : Relationship} (h : (name, relationship) ∈ model.relationships) :
    ⟨name, name, .relation⟩ ∈ model.declarations :=
  List.mem_append_right _ (List.mem_map.mpr ⟨_, h, rfl⟩)

/-- Declarations of one member claim it in one way. -/
theorem Checked.claim_eq {model : Model} (h : model.Checked) {first second : Declaration}
    (hFirst : first ∈ model.declarations) (hSecond : second ∈ model.declarations)
    (hWire : first.wire = second.wire) : first.claim = second.claim := by
  have hClaims : model.declarations.Pairwise fun c d => c.wire = d.wire → c.claim = d.claim :=
    h.agrees.imp fun hAgrees hSame => (hAgrees hSame).1
  have : Std.Symm fun c d : Declaration => c.wire = d.wire → c.claim = d.claim :=
    ⟨fun _ _ hClaim hSame => (hClaim hSame.symm).symm⟩
  exact hClaims.forall_of_forall (fun _ _ _ => rfl) hFirst hSecond hWire

end Model

namespace Schema

/-- Each model of a schema was read from an entry of the document. -/
theorem exists_readEntry_of_mem_models {value : Yaml.Value} {schema : Schema}
    (hRead : ofValue value = .ok schema) {name : String} {model : Model}
    (hModel : (name, model) ∈ schema.models) :
    ∃ written, readEntry name written = .ok (.model model) := by
  rcases ofValue_eq_ok.mp hRead with ⟨-, hEmpty⟩ | ⟨written, -, hEntries⟩
  · simp [models, hEmpty] at hModel
  · obtain ⟨entry, -, -, -, hReads⟩ := Result.exists_left hEntries (mem_models.mp hModel)
    exact ⟨entry.2, hReads⟩

theorem checked_of_mem_models {value : Yaml.Value} {schema : Schema}
    (hRead : ofValue value = .ok schema) {name : String} {model : Model}
    (hModel : (name, model) ∈ schema.models) : model.Checked := by
  have hRows {α : Type} {read : Yaml.Value → Shape.Result α} {entries : List (Yaml.Value × Yaml.Value)}
      {field : String} {rows : List (String × α)}
      (h : Shape.FieldOf entries field (Shape.table read) [] rows) :
      (rows.map (·.1)).Nodup := by
    cases h with
    | there _ hTable => exact Shape.table_nodup hTable
    | missing _ => exact .nil
  obtain ⟨written, hReads⟩ := exists_readEntry_of_mem_models hRead hModel
  obtain ⟨entries, -, -, hOpened, hFault⟩ := readEntry_eq_model_iff.mp hReads
  obtain ⟨draft, hDraft, hRecord⟩ := Result.bind_eq_ok.mp hOpened
  obtain rfl : draft.record = model := Except.ok.inj hRecord
  exact ⟨hRows (Shape.record_field hasField_mappings hDraft),
    hRows (Shape.record_field hasField_relationships hDraft),
    (Model.fault?_eq_none_iff.mp hFault).2.2⟩

end Schema

end EntityGen
