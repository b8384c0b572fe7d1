import EntityGen.Proofs.Transfer

/-! Projections from the wire object. A projection that reads a flat member has the type of its
entity field in every schema that is read. Inside a group it has that type unless another field
stands at the same place with another type. -/

namespace EntityGen

/-- The wire object has, where a projection reads, a value of the type that the entity gives the
projected field. -/
def Projection.Typed (projection : Projection) (transfer : Transfer) (entity : Entity) : Prop :=
  ∃ field ∈ entity.fields, field.name = projection.field ∧
    Transfer.Provides transfer.members projection.source field.type

theorem Transfer.mem_projections {name : String} {model : Model} {projection : Projection} :
    projection ∈ (Transfer.ofModel name model).projections ↔
      ∃ a field, (a, field) ∈ model.mappings ∧ projection = ⟨a, field.place a⟩ := by
  simp only [Transfer.ofModel, List.mem_map, Prod.exists, eq_comm (b := projection)]
  rfl

namespace Model.Checked

variable {model : Model} (hChecked : model.Checked)
include hChecked

/-- The projection of a field is typed if the first field at its place has its type. -/
theorem typed_iff {a : String} {field : Field} (hField : (a, field) ∈ model.mappings)
    (name : String) :
    Projection.Typed ⟨a, field.place a⟩ (.ofModel name model) (.ofModel name model) ↔
      Transfer.firstType? model.mappings (field.place a) = some field.primitive := by
  rw [← Transfer.provides_ofFields]
  constructor
  · rintro ⟨entityField, hEntityField, hName, hProvides⟩
    obtain ⟨⟨b, other⟩, hOther, rfl⟩ := List.mem_map.mp hEntityField
    obtain rfl : b = a := hName
    -- The entity has one field of the name, since the model has one.
    obtain rfl : other = field :=
      (Prod.mk.inj (List.inj_on_of_nodup_map hChecked.fields hOther hField rfl)).2
    exact hProvides
  · intro hProvides
    exact ⟨_, List.mem_map_of_mem hField, rfl, hProvides⟩

/-- The projection of a field to a flat member is typed. -/
theorem typed_direct {a : String} {field : Field} (hField : (a, field) ∈ model.mappings)
    {wire : String} (hDirect : field.place a = .direct wire) (name : String) :
    Projection.Typed ⟨a, field.place a⟩ (.ofModel name model) (.ofModel name model) := by
  obtain ⟨b, first, hFirst, hPlace, hType⟩ := Transfer.firstType?_isSome hField
  rw [hChecked.typed_iff hField, hType]
  have hFlat : (first.place b).slot.2 = false := by rw [hPlace, hDirect]; rfl
  rw [(hChecked.slot_eq hFirst hField (by rw [hPlace])).2 hFlat]

/-- All projections are typed just if fields at one place have one type. -/
theorem all_typed_iff (name : String) :
    (∀ projection ∈ (Transfer.ofModel name model).projections,
        projection.Typed (.ofModel name model) (.ofModel name model)) ↔
      ∀ a first b second, (a, first) ∈ model.mappings → (b, second) ∈ model.mappings →
        first.place a = second.place b → first.primitive = second.primitive := by
  constructor
  · intro hTyped a first b second hFirst hSecond hPlace
    have hOne := (hChecked.typed_iff hFirst name).mp
      (hTyped _ (Transfer.mem_projections.mpr ⟨a, first, hFirst, rfl⟩))
    have hOther := (hChecked.typed_iff hSecond name).mp
      (hTyped _ (Transfer.mem_projections.mpr ⟨b, second, hSecond, rfl⟩))
    rw [hPlace, hOther] at hOne
    exact (Option.some.inj hOne).symm
  · intro hTypes projection hProjection
    obtain ⟨a, field, hField, rfl⟩ := Transfer.mem_projections.mp hProjection
    obtain ⟨b, first, hFirst, hPlace, hType⟩ := Transfer.firstType?_isSome hField
    rw [hChecked.typed_iff hField, hType, hTypes b first a field hFirst hField hPlace]

end Model.Checked

namespace Schema

/-- In a schema that is read, every projection to a flat member is typed, and all projections of a
model are typed just if its fields at one place of a group have one type. -/
theorem projections_typed_iff {value : Yaml.Value} {schema : Schema}
    (hRead : ofValue value = .ok schema) {name : String} {model : Model}
    (hModel : (name, model) ∈ schema.models) :
    (∀ projection ∈ (Transfer.ofModel name model).projections, ∀ wire,
        projection.source = .direct wire →
        projection.Typed (.ofModel name model) (.ofModel name model)) ∧
    ((∀ projection ∈ (Transfer.ofModel name model).projections,
        projection.Typed (.ofModel name model) (.ofModel name model)) ↔
      ∀ outer inner a first b second, (a, first) ∈ model.mappings → (b, second) ∈ model.mappings →
        first.place a = .nested outer inner → second.place b = .nested outer inner →
        first.primitive = second.primitive) := by
  have hChecked := checked_of_mem_models hRead hModel
  have hDirect : ∀ projection ∈ (Transfer.ofModel name model).projections, ∀ wire,
      projection.source = .direct wire →
      projection.Typed (.ofModel name model) (.ofModel name model) := by
    intro projection hProjection wire hSource
    obtain ⟨a, field, hField, rfl⟩ := Transfer.mem_projections.mp hProjection
    exact hChecked.typed_direct hField hSource name
  refine ⟨hDirect, ?_⟩
  rw [hChecked.all_typed_iff]
  constructor
  · intro hTypes outer inner a first b second hFirst hSecond hPlace hOther
    exact hTypes a first b second hFirst hSecond (hPlace.trans hOther.symm)
  · intro hTypes a first b second hFirst hSecond hSame
    cases hPlace : first.place a with
    | direct wire =>
      have hFlat : (first.place a).slot.2 = false := by rw [hPlace]; rfl
      exact (hChecked.slot_eq hFirst hSecond (by rw [hSame])).2 hFlat
    | nested outer inner =>
      exact hTypes outer inner a first b second hFirst hSecond hPlace (hSame ▸ hPlace)

/-- A document with one model, whose two fields stand at one place of a group with two types. -/
def sharedPlace : Yaml.Value :=
  .map [(.str "User", .map [(.str "type", .str "model"), (.str "mappings", .map [
    (.str "a", .map [(.str "type", .str "string"), (.str "map", .str "address.street")]),
    (.str "b", .map [(.str "type", .str "number"), (.str "map", .str "address.street")])])])]

/-- The document is read, and one of the projections of its model is not typed. -/
theorem projections_untyped :
    ∃ schema name model, ofValue sharedPlace = .ok schema ∧ (name, model) ∈ schema.models ∧
      ¬∀ projection ∈ (Transfer.ofModel name model).projections,
        projection.Typed (.ofModel name model) (.ofModel name model) := by
  refine ⟨_, "User", ⟨[("a", { type := "string", map := some "address.street" }),
    ("b", { type := "number", map := some "address.street" })], []⟩, rfl, List.mem_cons_self, ?_⟩
  intro hTyped
  have hRead : ofValue sharedPlace = .ok _ := rfl
  have hTypes := (projections_typed_iff hRead List.mem_cons_self).2.mp hTyped
  have hSame := hTypes "address" "street" "a" _ "b" _ List.mem_cons_self
    (List.mem_cons_of_mem _ List.mem_cons_self) (by rfl) (by rfl)
  exact absurd hSame (by decide)

end Schema

end EntityGen
