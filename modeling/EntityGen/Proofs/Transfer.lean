import EntityGen.Proofs.Schema.Declarations
import Mathlib.Data.List.Induction
import Mathlib.Data.List.Nodup

/-! The members of a wire object. They come from adding one field after the other, each member
stands in a slot of its own, and what is found at a place is what the first field there has put
down. -/

namespace EntityGen

/-- The member that a place lies in: its name, and whether it is a group. -/
def WirePath.slot : WirePath → String × Bool
  | .direct name => (name, false)
  | .nested outer _ => (outer, true)

def WireMember.slot : WireMember → String × Bool
  | .flat name _ _ => (name, false)
  | .group key _ _ => (key, true)

/-- A member has a value of a type at a place: a flat member of that name and type, or a group with
a property of that name and type. -/
def WireMember.Provides : WireMember → WirePath → Primitive → Prop
  | .flat name found _, .direct wire, type => name = wire ∧ found = type
  | .group key _ properties, .nested outer inner, type => key = outer ∧ (inner, type) ∈ properties
  | _, _, _ => False

theorem WireMember.Provides.slot_eq {member : WireMember} {place : WirePath} {type : Primitive}
    (h : member.Provides place type) : member.slot = place.slot := by
  cases member with
  | flat name found required =>
    cases place with
    | direct wire => exact Prod.ext h.1 rfl
    | nested outer inner => exact h.elim
  | group key required properties =>
    cases place with
    | direct wire => exact h.elim
    | nested outer inner => exact Prod.ext h.1 rfl

/-- The place of a field on the wire. -/
def Field.place (field : Field) (name : String) : WirePath := .ofPath (field.sourcePath name)

/-- A field claims the slot that its place lies in. -/
theorem Field.declaration_eq (name : String) (field : Field) :
    field.declaration name =
      ⟨name, (field.place name).slot.1,
        if (field.place name).slot.2 then .nested else .flat field.primitive⟩ := by
  rw [Field.declaration, Field.place, WirePath.ofPath.eq_def]
  rcases pathSegments (field.sourcePath name) with _ | ⟨outer, _ | ⟨inner, more⟩⟩ <;> rfl

namespace Transfer

/-- Puts a slot at the end, unless it is there. -/
def addSlot (slot : String × Bool) (slots : List (String × Bool)) : List (String × Bool) :=
  if slot ∈ slots then slots else slots ++ [slot]

theorem addSlot_cons_self (slot : String × Bool) (rest : List (String × Bool)) :
    addSlot slot (slot :: rest) = slot :: rest :=
  if_pos List.mem_cons_self

theorem addSlot_cons_of_ne {slot other : String × Bool} (h : other ≠ slot)
    (rest : List (String × Bool)) : addSlot slot (other :: rest) = other :: addSlot slot rest := by
  simp only [addSlot, List.mem_cons, Ne.symm h, false_or, List.cons_append]
  exact (apply_ite (List.cons other) _ _ _).symm

theorem mem_addSlot {slot other : String × Bool} {slots : List (String × Bool)} :
    other ∈ addSlot slot slots ↔ other ∈ slots ∨ other = slot := by
  rw [addSlot]
  split
  · rename_i hSlot
    exact ⟨Or.inl, fun h => h.elim id fun hSame => hSame ▸ hSlot⟩
  · rw [List.mem_append, List.mem_singleton]

theorem addSlot_nodup {slot : String × Bool} {slots : List (String × Bool)} (h : slots.Nodup) :
    (addSlot slot slots).Nodup := by
  rw [addSlot]
  split
  · exact h
  · rename_i hNew
    refine List.nodup_append.mpr ⟨h, List.nodup_singleton slot, fun other hOther last hLast => ?_⟩
    rw [List.mem_singleton.mp hLast]
    rintro rfl
    exact hNew hOther

def slots (members : List WireMember) : List (String × Bool) := members.map WireMember.slot

/-- Among the members is one that has a value of a type at a place. -/
def Provides (members : List WireMember) (place : WirePath) (type : Primitive) : Prop :=
  ∃ member ∈ members, member.Provides place type

theorem provides_cons {member : WireMember} {rest : List WireMember} {place : WirePath}
    {type : Primitive} :
    Provides (member :: rest) place type ↔ member.Provides place type ∨ Provides rest place type :=
  List.exists_mem_cons_iff _ _ _

theorem Provides.mem_slots {members : List WireMember} {place : WirePath} {type : Primitive}
    (h : Provides members place type) : place.slot ∈ slots members := by
  obtain ⟨member, hMember, hProvides⟩ := h
  rw [← hProvides.slot_eq]
  exact List.mem_map_of_mem hMember

/-! ### Adding one field -/

theorem slots_addFlat (wire : String) (type : Primitive) (required : Bool)
    (members : List WireMember) :
    slots (addFlat wire type required members) = addSlot (wire, false) (slots members) := by
  induction members with
  | nil => rfl
  | cons member rest ih =>
    cases member with
    | flat name found r =>
      by_cases hName : name = wire
      · rw [addFlat, if_pos (by simpa using hName), hName]
        exact (addSlot_cons_self _ _).symm
      · rw [addFlat, if_neg (by simpa using hName)]
        calc (name, false) :: slots (addFlat wire type required rest)
          _ = (name, false) :: addSlot (wire, false) (slots rest) := by rw [ih]
          _ = addSlot (wire, false) ((name, false) :: slots rest) :=
            (addSlot_cons_of_ne (by simpa using hName) _).symm
    | group key r properties =>
      calc (key, true) :: slots (addFlat wire type required rest)
        _ = (key, true) :: addSlot (wire, false) (slots rest) := by rw [ih]
        _ = addSlot (wire, false) ((key, true) :: slots rest) :=
          (addSlot_cons_of_ne (by simp) _).symm

theorem slots_addNested (outer inner : String) (type : Primitive) (required : Bool)
    (members : List WireMember) :
    slots (addNested outer inner type required members) = addSlot (outer, true) (slots members) := by
  induction members with
  | nil => rfl
  | cons member rest ih =>
    cases member with
    | group key r properties =>
      by_cases hKey : key = outer
      · rw [addNested, if_pos (by simpa using hKey), hKey]
        exact (addSlot_cons_self _ _).symm
      · rw [addNested, if_neg (by simpa using hKey)]
        calc (key, true) :: slots (addNested outer inner type required rest)
          _ = (key, true) :: addSlot (outer, true) (slots rest) := by rw [ih]
          _ = addSlot (outer, true) ((key, true) :: slots rest) :=
            (addSlot_cons_of_ne (by simpa using hKey) _).symm
    | flat name found r =>
      calc (name, false) :: slots (addNested outer inner type required rest)
        _ = (name, false) :: addSlot (outer, true) (slots rest) := by rw [ih]
        _ = addSlot (outer, true) ((name, false) :: slots rest) :=
          (addSlot_cons_of_ne (by simp) _).symm

theorem slots_addField (members : List WireMember) (name : String) (field : Field) :
    slots (addField members name field) = addSlot (field.place name).slot (slots members) := by
  rw [addField, Field.place]
  cases WirePath.ofPath (field.sourcePath name) with
  | direct wire => exact slots_addFlat wire _ _ members
  | nested outer inner => exact slots_addNested outer inner _ _ members

/-- A value is put down where nothing is found yet. -/
theorem provides_addFlat {wire : String} {type : Primitive} {required : Bool}
    {members : List WireMember} {place : WirePath} {found : Primitive} :
    Provides (addFlat wire type required members) place found ↔
      Provides members place found ∨
        place = .direct wire ∧ found = type ∧ ∀ other, ¬Provides members place other := by
  induction members with
  | nil => cases place <;> simp [addFlat, Provides, WireMember.Provides, eq_comm]
  | cons member rest ih =>
    by_cases hHere : member.slot = (wire, false)
    · obtain ⟨t, r, rfl⟩ : ∃ t r, member = .flat wire t r := by
        cases member with
        | flat name t r => exact ⟨t, r, by rw [(Prod.mk.inj hHere).1]⟩
        | group key r properties => simp [WireMember.slot] at hHere
      -- The value goes into the member that is there, whose name and type stay.
      have hKept : (WireMember.flat wire t (r || required)).Provides place found ↔
          (WireMember.flat wire t r).Provides place found := by cases place <;> rfl
      rw [addFlat, if_pos (by simp), provides_cons, provides_cons, hKept]
      refine ⟨Or.inl, fun h => h.resolve_right fun ⟨hPlace, _, hNone⟩ => hNone t ?_⟩
      rw [hPlace, provides_cons]
      exact Or.inl ⟨rfl, rfl⟩
    · have hStep : addFlat wire type required (member :: rest) =
          member :: addFlat wire type required rest := by
        cases member with
        | flat name t r => exact if_neg fun hName => hHere (by simpa [WireMember.slot] using hName)
        | group key r properties => rfl
      have hOther : place = .direct wire → ∀ other, ¬member.Provides place other := by
        rintro rfl other hProvides
        exact hHere hProvides.slot_eq
      rw [hStep, provides_cons, ih]
      simp only [provides_cons, not_or, forall_and]
      tauto

theorem mem_addProperty {inner name : String} {type found : Primitive}
    {properties : List (String × Primitive)} :
    (name, found) ∈ addProperty inner type properties ↔
      (name, found) ∈ properties ∨
        name = inner ∧ found = type ∧ ∀ other, (name, other) ∉ properties := by
  rw [addProperty]
  split
  · rename_i hThere
    obtain ⟨⟨_, other⟩, hMem, hName⟩ := List.any_eq_true.mp hThere
    refine ⟨Or.inl, fun h => h.resolve_right fun ⟨hSame, _, hNone⟩ => hNone other ?_⟩
    rw [hSame, ← eq_of_beq hName]
    exact hMem
  · rename_i hNew
    have hNone : ∀ other, (inner, other) ∉ properties := fun other hMem =>
      hNew (List.any_eq_true.mpr ⟨_, hMem, by simp⟩)
    rw [List.mem_append, List.mem_singleton, Prod.mk.injEq]
    constructor
    · rintro (h | ⟨rfl, rfl⟩)
      · exact Or.inl h
      · exact Or.inr ⟨rfl, rfl, hNone⟩
    · rintro (h | ⟨hName, hFound, -⟩)
      · exact Or.inl h
      · exact Or.inr ⟨hName, hFound⟩

/-- A property is put down in the group of its key, if the group does not have it yet. -/
theorem provides_addNested {outer inner : String} {type : Primitive} {required : Bool}
    {members : List WireMember} (hSlots : (slots members).Nodup) {place : WirePath}
    {found : Primitive} :
    Provides (addNested outer inner type required members) place found ↔
      Provides members place found ∨
        place = .nested outer inner ∧ found = type ∧ ∀ other, ¬Provides members place other := by
  induction members with
  | nil => cases place <;> simp [addNested, Provides, WireMember.Provides, eq_comm, and_assoc]
  | cons member rest ih =>
    rw [slots, List.map_cons, List.nodup_cons] at hSlots
    by_cases hHere : member.slot = (outer, true)
    · obtain ⟨r, properties, rfl⟩ : ∃ r properties, member = .group outer r properties := by
        cases member with
        | flat name t r => simp [WireMember.slot] at hHere
        | group key r properties => exact ⟨r, properties, by rw [(Prod.mk.inj hHere).1]⟩
      rw [addNested, if_pos (by simp)]
      simp only [provides_cons]
      cases place with
      | direct wire => simp [WireMember.Provides]
      | nested key name =>
        by_cases hKey : key = outer
        · -- No other group has the key, so the properties of this one decide.
          subst hKey
          have hRest : ∀ other, ¬Provides rest (.nested key name) other :=
            fun other h => hSlots.1 h.mem_slots
          simp only [WireMember.Provides, mem_addProperty, hRest, or_false, WirePath.nested.injEq,
            true_and]
        · simp [WireMember.Provides, hKey, Ne.symm hKey]
    · have hStep : addNested outer inner type required (member :: rest) =
          member :: addNested outer inner type required rest := by
        cases member with
        | flat name t r => rfl
        | group key r properties =>
          exact if_neg fun hKey => hHere (by simpa [WireMember.slot] using hKey)
      have hOther : place = .nested outer inner → ∀ other, ¬member.Provides place other := by
        rintro rfl other hProvides
        exact hHere hProvides.slot_eq
      rw [hStep, provides_cons, ih hSlots.2]
      simp only [provides_cons, not_or, forall_and]
      tauto

theorem provides_addField {members : List WireMember} (hSlots : (slots members).Nodup)
    {name : String} {field : Field} {place : WirePath} {found : Primitive} :
    Provides (addField members name field) place found ↔
      Provides members place found ∨
        place = field.place name ∧ found = field.primitive ∧
          ∀ other, ¬Provides members place other := by
  rw [addField, Field.place]
  cases WirePath.ofPath (field.sourcePath name) with
  | direct wire => exact provides_addFlat
  | nested outer inner => exact provides_addNested hSlots

/-! ### Adding the fields of a model -/

/-- The members that fields add up to. -/
def ofFields (fields : List (String × Field)) : List WireMember :=
  fields.foldl (fun members (name, field) => addField members name field) []

/-- The type of the first field at a place. -/
def firstType? (fields : List (String × Field)) (place : WirePath) : Option Primitive :=
  fields.findSome? fun (name, field) =>
    if field.place name = place then some field.primitive else none

theorem ofFields_concat (fields : List (String × Field)) (name : String) (field : Field) :
    ofFields (fields ++ [(name, field)]) = addField (ofFields fields) name field := by
  rw [ofFields, List.foldl_concat]
  rfl

theorem slots_ofFields_nodup (fields : List (String × Field)) : (slots (ofFields fields)).Nodup := by
  induction fields using List.reverseRecOn with
  | nil => exact List.nodup_nil
  | append_singleton fields last ih =>
    rw [ofFields_concat, slots_addField]
    exact addSlot_nodup ih

/-- A slot is taken just if a field's place lies in it. -/
theorem mem_slots_ofFields {fields : List (String × Field)} {slot : String × Bool} :
    slot ∈ slots (ofFields fields) ↔ ∃ name field, (name, field) ∈ fields ∧
      (field.place name).slot = slot := by
  induction fields using List.reverseRecOn with
  | nil => simp [ofFields, slots]
  | append_singleton fields last ih =>
    obtain ⟨name, field⟩ := last
    rw [ofFields_concat, slots_addField, mem_addSlot, ih]
    constructor
    · rintro (⟨other, f, hMem, hSlot⟩ | hSlot)
      · exact ⟨other, f, List.mem_append_left _ hMem, hSlot⟩
      · exact ⟨name, field, List.mem_append_right _ List.mem_cons_self, hSlot.symm⟩
    · rintro ⟨other, f, hMem, hSlot⟩
      rcases List.mem_append.mp hMem with hMem | hLast
      · exact Or.inl ⟨other, f, hMem, hSlot⟩
      · obtain ⟨rfl, rfl⟩ := Prod.mk.inj (List.mem_singleton.mp hLast)
        exact Or.inr hSlot.symm

/-- What is found at a place is what the first field there has put down. -/
theorem provides_ofFields {fields : List (String × Field)} {place : WirePath} {type : Primitive} :
    Provides (ofFields fields) place type ↔ firstType? fields place = some type := by
  induction fields using List.reverseRecOn generalizing type with
  | nil => simp [ofFields, Provides, firstType?]
  | append_singleton fields last ih =>
    obtain ⟨name, field⟩ := last
    rw [ofFields_concat, provides_addField (slots_ofFields_nodup fields)]
    simp only [ih, firstType?, List.findSome?_append, List.findSome?_singleton]
    rcases hFirst : List.findSome? _ fields with _ | first
    · rw [Option.none_or, Option.ite_none_right_eq_some, Option.some.injEq]
      constructor
      · rintro (h | ⟨hPlace, hType, -⟩)
        · cases h
        · exact ⟨hPlace.symm, hType.symm⟩
      · rintro ⟨hPlace, hType⟩
        exact Or.inr ⟨hPlace.symm, hType.symm, by simp⟩
    · simp only [Option.some_or, Option.some.injEq, or_iff_left_iff_imp]
      rintro ⟨-, -, hNone⟩
      exact absurd rfl (hNone first)

/-- Every place of a field has the type of the first field there. -/
theorem firstType?_isSome {fields : List (String × Field)} {name : String} {field : Field}
    (h : (name, field) ∈ fields) :
    ∃ first type, (first, type) ∈ fields ∧ type.place first = field.place name ∧
      firstType? fields (field.place name) = some type.primitive := by
  obtain ⟨found, hFound⟩ : ∃ found, firstType? fields (field.place name) = some found := by
    rw [← Option.isSome_iff_exists, firstType?, List.findSome?_isSome_iff]
    exact ⟨_, h, by simp⟩
  obtain ⟨⟨first, type⟩, hFirst, hType⟩ := List.exists_of_findSome?_eq_some hFound
  rw [Option.ite_none_right_eq_some] at hType
  exact ⟨first, type, hFirst, hType.1, by rw [hFound, ← hType.2]⟩

end Transfer

/-! ### The members of a checked model -/

namespace Model.Checked

variable {model : Model} (hChecked : model.Checked) {a b : String} {first second : Field}
include hChecked

/-- Fields whose places lie in members of one name lie in one member, and if it is flat they have
one type. -/
theorem slot_eq (hFirst : (a, first) ∈ model.mappings) (hSecond : (b, second) ∈ model.mappings)
    (hName : (first.place a).slot.1 = (second.place b).slot.1) :
    (first.place a).slot = (second.place b).slot ∧
      ((first.place a).slot.2 = false → first.primitive = second.primitive) := by
  have hClaim := hChecked.claim_eq (mem_declarations_of_field hFirst)
    (mem_declarations_of_field hSecond) (by simpa only [Field.declaration_eq] using hName)
  simp only [Field.declaration_eq] at hClaim
  cases hGroup : (first.place a).slot.2 <;> cases hOther : (second.place b).slot.2 <;>
    simp only [hGroup, hOther, if_true, if_false, reduceCtorEq, Bool.false_eq_true,
      Claim.flat.injEq] at hClaim
  · exact ⟨Prod.ext hName (hGroup.trans hOther.symm), fun _ => hClaim⟩
  · exact ⟨Prod.ext hName (hGroup.trans hOther.symm), fun h => absurd h (by simp)⟩

/-- No field has its place in a member that is called like a relationship. -/
theorem slot_ne_relationship {relation : String} {relationship : Relationship}
    (hField : (a, first) ∈ model.mappings)
    (hRelation : (relation, relationship) ∈ model.relationships) :
    (first.place a).slot.1 ≠ relation := by
  intro hName
  have hClaim := hChecked.claim_eq (mem_declarations_of_field hField)
    (mem_declarations_of_relationship hRelation) (by simpa only [Field.declaration_eq] using hName)
  simp only [Field.declaration_eq] at hClaim
  split at hClaim <;> cases hClaim

/-- The members of the wire object have different names. -/
theorem names_nodup : ((Transfer.slots (Transfer.ofFields model.mappings)).map (·.1)).Nodup := by
  refine (Transfer.slots_ofFields_nodup model.mappings).map_on fun slot hSlot other hOther h => ?_
  obtain ⟨a, first, hFirst, rfl⟩ := Transfer.mem_slots_ofFields.mp hSlot
  obtain ⟨b, second, hSecond, rfl⟩ := Transfer.mem_slots_ofFields.mp hOther
  exact (hChecked.slot_eq hFirst hSecond h).1

end Model.Checked

end EntityGen
