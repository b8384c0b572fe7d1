import EntityGen.Proofs.FirstUse
import EntityGen.Proofs.Projection

/-! The layout of a wire object. A member sums up the fields whose places lie in it: it is required
if one of them is, and a group has the properties that they name, in the order of first use. -/

namespace EntityGen

namespace WireMember

/-- Whether a member must be there. -/
def required : WireMember → Bool
  | .flat _ _ required => required
  | .group _ required _ => required

/-- The properties of a member; a flat one has none. -/
def properties : WireMember → List (String × Primitive)
  | .flat .. => []
  | .group _ _ properties => properties

/-- The names of a member's properties. -/
def propertyNames (member : WireMember) : List String := member.properties.map (·.1)

/-- A member for the first field at a place. -/
def fresh (place : WirePath) (type : Primitive) (required : Bool) : WireMember :=
  match place with
  | .direct name => .flat name type required
  | .nested outer inner => .group outer required [(inner, type)]

/-- A member with one more field, at a place in it. -/
def put (place : WirePath) (type : Primitive) (required : Bool) : WireMember → WireMember
  | .flat name found r => .flat name found (r || required)
  | .group key r properties =>
    .group key (r || required) <| match place with
      | .direct _ => properties
      | .nested _ inner => Transfer.addProperty inner type properties

@[simp] theorem slot_fresh (place : WirePath) (type : Primitive) (required : Bool) :
    (fresh place type required).slot = place.slot := by
  cases place <;> rfl

@[simp] theorem slot_put (place : WirePath) (type : Primitive) (required : Bool)
    (member : WireMember) : (member.put place type required).slot = member.slot := by
  cases member <;> rfl

@[simp] theorem required_fresh (place : WirePath) (type : Primitive) (required : Bool) :
    (fresh place type required).required = required := by
  cases place <;> rfl

@[simp] theorem required_put (place : WirePath) (type : Primitive) (required : Bool)
    (member : WireMember) :
    (member.put place type required).required = (member.required || required) := by
  cases member <;> rfl

end WireMember

/-- The property that a place names in the member of a slot. -/
def WirePath.property? (slot : String × Bool) : WirePath → Option String
  | .direct _ => none
  | .nested outer inner => if (outer, true) = slot then some inner else none

theorem WirePath.property?_of_ne {place : WirePath} {slot : String × Bool} (h : place.slot ≠ slot) :
    place.property? slot = none := by
  cases place with
  | direct name => rfl
  | nested outer inner => exact if_neg h

namespace Transfer

/-! ### Adding one field -/

/-- The members with one more field, at a place. -/
def putIn (place : WirePath) (type : Primitive) (required : Bool) :
    List WireMember → List WireMember
  | [] => [.fresh place type required]
  | member :: rest =>
    if member.slot = place.slot then member.put place type required :: rest
    else member :: putIn place type required rest

theorem addFlat_eq_putIn (wire : String) (type : Primitive) (required : Bool)
    (members : List WireMember) :
    addFlat wire type required members = putIn (.direct wire) type required members := by
  induction members with
  | nil => rfl
  | cons member rest ih =>
    cases member with
    | flat name found r =>
      simp [addFlat, putIn, ih, WireMember.slot, WirePath.slot, WireMember.put]
    | group key r properties => simp [addFlat, putIn, ih, WireMember.slot, WirePath.slot]

theorem addNested_eq_putIn (outer inner : String) (type : Primitive) (required : Bool)
    (members : List WireMember) :
    addNested outer inner type required members =
      putIn (.nested outer inner) type required members := by
  induction members with
  | nil => rfl
  | cons member rest ih =>
    cases member with
    | flat name found r => simp [addNested, putIn, ih, WireMember.slot, WirePath.slot]
    | group key r properties =>
      simp [addNested, putIn, ih, WireMember.slot, WirePath.slot, WireMember.put]

theorem addField_eq_putIn (members : List WireMember) (name : String) (field : Field) :
    addField members name field =
      putIn (field.place name) field.primitive field.required members := by
  rw [addField, Field.place]
  cases WirePath.ofPath (field.sourcePath name) with
  | direct wire => exact addFlat_eq_putIn wire _ _ members
  | nested outer inner => exact addNested_eq_putIn outer inner _ _ members

/-- A member with one more field among them is one of another slot, the one of the field's slot, or
a fresh one. -/
theorem mem_putIn_cases {place : WirePath} {type : Primitive} {required : Bool}
    {members : List WireMember} (hSlots : (slots members).Nodup) {member : WireMember}
    (h : member ∈ putIn place type required members) :
    (member ∈ members ∧ member.slot ≠ place.slot) ∨
      (∃ old ∈ members, old.slot = place.slot ∧ member = old.put place type required) ∨
      (place.slot ∉ slots members ∧ member = .fresh place type required) := by
  induction members with
  | nil => exact .inr (.inr ⟨List.not_mem_nil, List.mem_singleton.mp h⟩)
  | cons first rest ih =>
    rw [slots, List.map_cons, List.nodup_cons] at hSlots
    rw [putIn] at h
    split at h
    · rename_i hHere
      rcases List.mem_cons.mp h with rfl | hRest
      · exact .inr (.inl ⟨first, List.mem_cons_self, hHere, rfl⟩)
      · refine .inl ⟨List.mem_cons_of_mem _ hRest, fun hSame => hSlots.1 ?_⟩
        rw [hHere, ← hSame]
        exact List.mem_map_of_mem hRest
    · rename_i hOther
      rcases List.mem_cons.mp h with rfl | hRest
      · exact .inl ⟨List.mem_cons_self, hOther⟩
      · rcases ih hSlots.2 hRest with ⟨hMem, hSlot⟩ | ⟨old, hOld, hSlot, hPut⟩ | ⟨hNone, hFresh⟩
        · exact .inl ⟨List.mem_cons_of_mem _ hMem, hSlot⟩
        · exact .inr (.inl ⟨old, List.mem_cons_of_mem _ hOld, hSlot, hPut⟩)
        · refine .inr (.inr ⟨fun hSlot => ?_, hFresh⟩)
          rcases List.mem_cons.mp hSlot with hFirst | hSlot
          · exact hOther hFirst.symm
          · exact hNone hSlot

/-! ### What a member sums up -/

/-- The properties that fields name in the member of a slot. -/
def propertiesIn (slot : String × Bool) (fields : List (String × Field)) : List String :=
  fields.filterMap fun row => (row.2.place row.1).property? slot

/-- One of some fields whose places lie in the member of a slot is required. -/
def RequiredIn (slot : String × Bool) (fields : List (String × Field)) : Prop :=
  ∃ name field, (name, field) ∈ fields ∧ (field.place name).slot = slot ∧ field.required = true

/-- A member sums up the fields whose places lie in it. -/
structure Sums (fields : List (String × Field)) (member : WireMember) : Prop where
  required : member.required = true ↔ RequiredIn member.slot fields
  properties : member.propertyNames = (propertiesIn member.slot fields).eraseDups

theorem propertiesIn_concat (slot : String × Bool) (fields : List (String × Field)) (name : String)
    (field : Field) : propertiesIn slot (fields ++ [(name, field)]) =
      propertiesIn slot fields ++ ((field.place name).property? slot).toList := by
  rw [propertiesIn, List.filterMap_append]
  cases h : (field.place name).property? slot <;> simp [h, propertiesIn]

theorem requiredIn_concat {slot : String × Bool} {fields : List (String × Field)} {name : String}
    {field : Field} : RequiredIn slot (fields ++ [(name, field)]) ↔
      RequiredIn slot fields ∨ ((field.place name).slot = slot ∧ field.required = true) := by
  simp only [RequiredIn, List.mem_append, List.mem_singleton, Prod.mk.injEq]
  constructor
  · rintro ⟨other, f, hMem | ⟨rfl, rfl⟩, hThere⟩
    · exact .inl ⟨other, f, hMem, hThere⟩
    · exact .inr hThere
  · rintro (⟨other, f, hMem, hThere⟩ | hThere)
    · exact ⟨other, f, .inl hMem, hThere⟩
    · exact ⟨name, field, .inr ⟨rfl, rfl⟩, hThere⟩

theorem propertyNames_addProperty (inner : String) (type : Primitive)
    (properties : List (String × Primitive)) :
    (addProperty inner type properties).map (·.1) =
      if inner ∈ properties.map (·.1) then properties.map (·.1)
      else properties.map (·.1) ++ [inner] := by
  have hThere : (properties.any fun property => property.1 == inner) = true ↔
      inner ∈ properties.map (·.1) := by
    simp only [List.any_eq_true, beq_iff_eq, List.mem_map]
  rw [addProperty]
  by_cases h : inner ∈ properties.map (·.1)
  · rw [if_pos h, if_pos (hThere.mpr h)]
  · rw [if_neg h, if_neg (h ∘ hThere.mp), List.map_append]
    rfl

variable {fields : List (String × Field)} {name : String} {field : Field} {member : WireMember}

/-- A field elsewhere changes nothing. -/
theorem Sums.elsewhere (h : Sums fields member) (hSlot : (field.place name).slot ≠ member.slot) :
    Sums (fields ++ [(name, field)]) member where
  required := by
    rw [requiredIn_concat, h.required]
    exact (or_iff_left fun hThere => hSlot hThere.1).symm
  properties := by
    rw [h.properties, propertiesIn_concat, WirePath.property?_of_ne hSlot, Option.toList_none,
      List.append_nil]

theorem Sums.put (h : Sums fields member) (hSlot : member.slot = (field.place name).slot) :
    Sums (fields ++ [(name, field)])
      (member.put (field.place name) field.primitive field.required) where
  required := by
    rw [WireMember.required_put, WireMember.slot_put, requiredIn_concat, Bool.or_eq_true,
      h.required]
    exact or_congr_right (and_iff_right hSlot.symm).symm
  properties := by
    have hNames := h.properties
    rw [WireMember.slot_put, propertiesIn_concat]
    generalize field.place name = place at hSlot ⊢
    cases member with
    | flat key found r =>
      cases place with
      | direct wire =>
        show (WireMember.flat key found r).propertyNames = _
        rw [hNames, show (WirePath.direct wire).property? _ = none from rfl, Option.toList_none,
          List.append_nil]
      | nested outer inner => simp [WireMember.slot, WirePath.slot] at hSlot
    | group key r properties =>
      cases place with
      | direct wire => simp [WireMember.slot, WirePath.slot] at hSlot
      | nested outer inner =>
        obtain rfl : key = outer := (Prod.mk.inj hSlot).1
        have hProperty : (WirePath.nested key inner).property?
            (WireMember.group key r properties).slot = some inner := if_pos rfl
        have hMem : inner ∈ properties.map (·.1) ↔ inner ∈ propertiesIn (key, true) fields := by
          rw [show properties.map (·.1) = _ from hNames, List.mem_eraseDups]
          rfl
        rw [hProperty, Option.toList_some, eraseDups_concat, ← hNames]
        exact (propertyNames_addProperty inner field.primitive properties).trans (by
          simp only [hMem, List.contains_iff_mem]
          rfl)

/-- A fresh member is for a field that is the first in its slot. -/
theorem Sums.fresh (hFirst : (field.place name).slot ∉ slots (ofFields fields)) :
    Sums (fields ++ [(name, field)])
      (.fresh (field.place name) field.primitive field.required) := by
  have hOthers {other : String} {f : Field} (hMem : (other, f) ∈ fields) :
      (f.place other).slot ≠ (field.place name).slot :=
    fun hSlot => hFirst (mem_slots_ofFields.mpr ⟨other, f, hMem, hSlot⟩)
  constructor
  · have hNone : ¬RequiredIn (field.place name).slot fields :=
      fun ⟨_, _, hMem, hSlot, _⟩ => hOthers hMem hSlot
    rw [WireMember.required_fresh, WireMember.slot_fresh, requiredIn_concat, or_iff_right hNone,
      and_iff_right rfl]
  · have hNone : propertiesIn (field.place name).slot fields = [] :=
      List.filterMap_eq_nil_iff.mpr fun row hMem => WirePath.property?_of_ne (hOthers hMem)
    rw [WireMember.slot_fresh, propertiesIn_concat, hNone, List.nil_append]
    cases field.place name with
    | direct wire => rfl
    | nested outer inner =>
      have hProperty : (WirePath.nested outer inner).property? (WirePath.nested outer inner).slot =
          some inner := if_pos rfl
      rw [hProperty]
      rfl

/-- Every member of the wire object sums up the fields whose places lie in it. -/
theorem sums_ofFields (fields : List (String × Field)) :
    ∀ member ∈ ofFields fields, Sums fields member := by
  induction fields using List.reverseRecOn with
  | nil => exact fun _ hMember => absurd hMember List.not_mem_nil
  | append_singleton fields last ih =>
    obtain ⟨name, field⟩ := last
    intro member hMember
    rw [ofFields_concat, addField_eq_putIn] at hMember
    rcases mem_putIn_cases (slots_ofFields_nodup fields) hMember with
      ⟨hThere, hSlot⟩ | ⟨old, hOld, hSlot, rfl⟩ | ⟨hNone, rfl⟩
    · exact (ih member hThere).elsewhere (Ne.symm hSlot)
    · exact (ih old hOld).put hSlot
    · exact .fresh hNone

/-- The members stand in the order in which fields use them first. -/
theorem slots_ofFields_eq (fields : List (String × Field)) :
    slots (ofFields fields) = (fields.map fun row => (row.2.place row.1).slot).eraseDups := by
  induction fields using List.reverseRecOn with
  | nil => rfl
  | append_singleton fields last ih =>
    obtain ⟨name, field⟩ := last
    rw [ofFields_concat, slots_addField, List.map_append, List.map_singleton, eraseDups_concat, ih,
      addSlot]
    simp only [List.mem_eraseDups, List.contains_iff_mem]

end Transfer

/-- A member is declared for a place: it is the flat member there, or a group with the property. -/
def WireMember.Declares (member : WireMember) (place : WirePath) : Prop :=
  ∃ type, member.Provides place type

namespace Transfer

variable {fields : List (String × Field)} {member : WireMember}

/-- The place of a field is declared. -/
theorem declared_ofFields {name : String} {field : Field} (h : (name, field) ∈ fields) :
    ∃ member ∈ ofFields fields, member.Declares (field.place name) := by
  obtain ⟨_, first, -, -, hType⟩ := firstType?_isSome h
  obtain ⟨member, hMember, hProvides⟩ := provides_ofFields.mpr hType
  exact ⟨member, hMember, first.primitive, hProvides⟩

/-- What is declared is the place of a field. -/
theorem exists_field_of_declares {place : WirePath} (hMember : member ∈ ofFields fields)
    (h : member.Declares place) :
    ∃ name field, (name, field) ∈ fields ∧ field.place name = place := by
  obtain ⟨type, hProvides⟩ := h
  have hFirst := provides_ofFields.mp ⟨member, hMember, hProvides⟩
  obtain ⟨⟨name, field⟩, hField, hPlace⟩ := List.exists_of_findSome?_eq_some hFirst
  exact ⟨name, field, hField, (Option.ite_none_right_eq_some.mp hPlace).1⟩

/-- Every member is declared for some place: that of a field which has used it. -/
theorem exists_declares (hMember : member ∈ ofFields fields) : ∃ place, member.Declares place := by
  obtain ⟨name, field, hField, hSlot⟩ := mem_slots_ofFields.mp (List.mem_map_of_mem hMember)
  obtain ⟨other, hOther, type, hProvides⟩ := declared_ofFields hField
  obtain rfl : other = member := List.inj_on_of_nodup_map (slots_ofFields_nodup fields) hOther
    hMember (hProvides.slot_eq.trans hSlot)
  exact ⟨_, type, hProvides⟩

end Transfer

/-- How the wire object of a model is laid out. -/
structure Transfer.LaidOut (model : Model) (transfer : Transfer) : Prop where
  /-- no two members or relations have one name -/
  names : (transfer.members.map (·.slot.1) ++ transfer.relations.map (·.name)).Nodup
  /-- nor do two properties of one group -/
  properties : ∀ member ∈ transfer.members, member.propertyNames.Nodup
  memberOrder : slots transfer.members =
    (model.mappings.map fun row => (row.2.place row.1).slot).eraseDups
  propertyOrder : ∀ member ∈ transfer.members,
    member.propertyNames = (propertiesIn member.slot model.mappings).eraseDups
  /-- one projection for each field, in order -/
  projections : transfer.projections = model.mappings.map fun row => ⟨row.1, row.2.place row.1⟩
  declared : ∀ projection ∈ transfer.projections,
    ∃ member ∈ transfer.members, member.Declares projection.source
  /-- every member and every property is projected from; no group is without a property -/
  used : ∀ member ∈ transfer.members, (∃ place, member.Declares place) ∧
    ∀ place, member.Declares place → ∃ projection ∈ transfer.projections, projection.source = place
  required : ∀ member ∈ transfer.members,
    member.required = true ↔ RequiredIn member.slot model.mappings

theorem Model.Checked.laidOut {model : Model} (h : model.Checked) (name : String) :
    Transfer.LaidOut model (.ofModel name model) where
  names := by
    have hRelations : (Transfer.ofModel name model).relations.map (·.name) =
        model.relationships.map (·.1) := by
      simp [Transfer.ofModel, Model.relations]
    have hMembers : (Transfer.ofModel name model).members.map (·.slot.1) =
        (Transfer.slots (Transfer.ofFields model.mappings)).map (·.1) := by
      simp [Transfer.slots, Transfer.ofModel, Transfer.ofFields]
    rw [hRelations, hMembers, List.nodup_append]
    refine ⟨h.names_nodup, h.relations, fun member hMember relation hRelation hSame => ?_⟩
    obtain ⟨slot, hSlot, rfl⟩ := List.mem_map.mp hMember
    obtain ⟨field, _, hField, rfl⟩ := Transfer.mem_slots_ofFields.mp hSlot
    obtain ⟨⟨_, relationship⟩, hRelationship, rfl⟩ := List.mem_map.mp hRelation
    exact h.slot_ne_relationship hField hRelationship hSame
  properties := fun member hMember => by
    rw [(Transfer.sums_ofFields model.mappings member hMember).properties]
    exact eraseDups_nodup _
  memberOrder := Transfer.slots_ofFields_eq model.mappings
  propertyOrder := fun member hMember =>
    (Transfer.sums_ofFields model.mappings member hMember).properties
  projections := rfl
  declared := fun projection hProjection => by
    obtain ⟨a, field, hField, rfl⟩ := Transfer.mem_projections.mp hProjection
    exact Transfer.declared_ofFields hField
  used := fun member hMember => by
    refine ⟨Transfer.exists_declares hMember, fun place hDeclares => ?_⟩
    obtain ⟨a, field, hField, rfl⟩ := Transfer.exists_field_of_declares hMember hDeclares
    exact ⟨_, Transfer.mem_projections.mpr ⟨a, field, hField, rfl⟩, rfl⟩
  required := fun member hMember =>
    (Transfer.sums_ofFields model.mappings member hMember).required

namespace Schema

/-- In a schema that is read, the wire object of every model is laid out so. -/
theorem transfer_laidOut {value : Yaml.Value} {schema : Schema} (hRead : ofValue value = .ok schema)
    {name : String} {model : Model} (hModel : (name, model) ∈ schema.models) :
    Transfer.LaidOut model (.ofModel name model) :=
  (checked_of_mem_models hRead hModel).laidOut name

/-- A document with a model whose fields share a wire name, a group and a property of it. -/
def sharedWire : Yaml.Value :=
  .map [(.str "User", .map [(.str "type", .str "model"), (.str "mappings", .map [
    (.str "a", .map [(.str "type", .str "string"), (.str "map", .str "name")]),
    (.str "b", .map [(.str "type", .str "string"), (.str "map", .str "address.home.street")]),
    (.str "c", .map [(.str "type", .str "string"), (.str "map", .str "name"),
      (.str "required", .bool true)]),
    (.str "d", .map [(.str "type", .str "string"), (.str "map", .str "address.city")]),
    (.str "e", .map [(.str "type", .str "string"), (.str "map", .str "address.street")])])])]

/-- The document is read, and the wire object of its model is laid out as the fields say. -/
theorem transfer_laidOut_shared : ∃ schema name model, ofValue sharedWire = .ok schema ∧
    (name, model) ∈ schema.models ∧ Transfer.LaidOut model (.ofModel name model) ∧
    (Transfer.ofModel name model).members = [.flat "name" .string true,
      .group "address" false [("street", .string), ("city", .string)]] := by
  have hRead : ofValue sharedWire = .ok _ := rfl
  exact ⟨_, "User", _, hRead, List.mem_cons_self, transfer_laidOut hRead List.mem_cons_self, by rfl⟩

end Schema

end EntityGen
