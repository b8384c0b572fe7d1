import EntityGen.Proofs.Schema.Declarations
import EntityGen.Proofs.Text.Split

/-! Names on the wire. Each declaration takes a name on the wire: a field the first segment of its
path, a relationship its own name. A model is accepted just if any two declarations of one name may
share it, although each is only held against the first one that took the name. In a refused model
the declaration blamed is the first one that may not share its name with an earlier one. -/

namespace EntityGen

/-- What comes before the first point of a path, all of the path if it has none. -/
def firstSegment (path : String) : String := String.ofList (path.toList.takeWhile (· ≠ '.'))

/-- A path without a point is one segment. A path with a point has two segments or more, and the
first of them is what comes before the point. -/
theorem pathSegments_cases (path : String) :
    ('.' ∉ path.toList ∧ firstSegment path = path ∧ pathSegments path = [path]) ∨
      '.' ∈ path.toList ∧
        ∃ next others, pathSegments path = firstSegment path :: next :: others := by
  by_cases hPoint : '.' ∈ path.toList
  · right
    obtain ⟨before, after, hPath, hBefore⟩ := List.eq_append_cons_of_mem hPoint
    have hFirst : firstSegment path = String.ofList before := by
      have hAll : ∀ c ∈ before, decide (c ≠ '.') = true := fun c hc => by
        simpa using fun hSame : c = '.' => hBefore (hSame ▸ hc)
      rw [firstSegment, hPath, List.takeWhile_append_of_pos hAll]
      simp
    rcases hAfter : Text.split '.' after with _ | ⟨next, others⟩
    · exact absurd hAfter (Text.split_ne_nil '.' after)
    · refine ⟨hPoint, String.ofList next, others.map String.ofList, ?_⟩
      rw [pathSegments, Text.parts, hPath, Text.split_append, Text.split_of_notMem hBefore, hAfter,
        hFirst]
      rfl
  · left
    have hAll : ∀ c ∈ path.toList, decide (c ≠ '.') = true := fun c hc => by
      simpa using fun hSame : c = '.' => hPoint (hSame ▸ hc)
    refine ⟨hPoint, ?_, Text.parts_of_notMem hPoint⟩
    rw [firstSegment, ← List.append_nil path.toList, List.takeWhile_append_of_pos hAll,
      List.takeWhile_nil, List.append_nil, String.ofList_toList]

/-- Whether a field is nested on the wire: its path has a point. -/
def Field.IsNested (field : Field) (name : String) : Prop := '.' ∈ (field.sourcePath name).toList

instance (field : Field) (name : String) : Decidable (field.IsNested name) :=
  inferInstanceAs (Decidable ('.' ∈ (field.sourcePath name).toList))

/-- A field or a relationship of a model, with its name. -/
inductive Declared where
  | field (name : String) (content : Field)
  | relationship (name : String)
deriving DecidableEq, Repr

namespace Declared

/-- What a model declares: its fields, then its relationships. -/
def ofModel (model : Model) : List Declared :=
  model.mappings.map (fun (name, content) => .field name content) ++
    model.relationships.map fun (name, _) => .relationship name

def name : Declared → String
  | field name _ => name
  | relationship name => name

/-- The name that a declaration takes on the wire. -/
def wire : Declared → String
  | field name content => firstSegment (content.sourcePath name)
  | relationship name => name

/-- Whether two declarations of one name on the wire may share it: both are nested fields, or both
are fields of one type that are not nested. -/
def MayShare : Declared → Declared → Prop
  | field a first, field b second =>
    (first.IsNested a ∧ second.IsNested b) ∨
      ¬ first.IsNested a ∧ ¬ second.IsNested b ∧ first.primitive = second.primitive
  | _, _ => False

instance : DecidableRel MayShare
  | field a first, field b second =>
    inferInstanceAs (Decidable ((first.IsNested a ∧ second.IsNested b) ∨
      ¬ first.IsNested a ∧ ¬ second.IsNested b ∧ first.primitive = second.primitive))
  | field .., relationship _ => isFalse id
  | relationship _, _ => isFalse id

/-- Two declarations stand together: they have different names on the wire, or may share theirs. -/
def StandsWith (first second : Declared) : Prop := first.wire = second.wire → first.MayShare second

instance : DecidableRel StandsWith := fun first second =>
  inferInstanceAs (Decidable (first.wire = second.wire → first.MayShare second))

theorem MayShare.symm {first second : Declared} (h : first.MayShare second) :
    second.MayShare first := by
  cases first with
  | relationship => exact h.elim
  | field a first =>
    cases second with
    | relationship => exact h.elim
    | field b second =>
      exact h.imp And.symm fun ⟨hFirst, hSecond, hType⟩ => ⟨hSecond, hFirst, hType.symm⟩

theorem MayShare.trans {first second third : Declared} (h : first.MayShare second)
    (hNext : second.MayShare third) : first.MayShare third := by
  cases first with
  | relationship => exact h.elim
  | field a first =>
    cases second with
    | relationship => exact h.elim
    | field b second =>
      cases third with
      | relationship => exact hNext.elim
      | field c third =>
        rcases h with ⟨hFirst, hSecond⟩ | ⟨hFirst, hSecond, hType⟩ <;>
          rcases hNext with ⟨hSame, hThird⟩ | ⟨hSame, hThird, hNextType⟩
        · exact .inl ⟨hFirst, hThird⟩
        · exact absurd hSecond hSame
        · exact absurd hSame hSecond
        · exact .inr ⟨hFirst, hThird, hType.trans hNextType⟩

theorem StandsWith.symm {first second : Declared} (h : first.StandsWith second) :
    second.StandsWith first :=
  fun hWire => (h hWire.symm).symm

/-- How the check of a model sees a declaration. -/
def declaration : Declared → Declaration
  | field name content => content.declaration name
  | relationship name => ⟨name, name, .relation⟩

theorem map_declaration (model : Model) :
    (ofModel model).map declaration = model.declarations := by
  simp [ofModel, Model.declarations, declaration, Function.comp_def]

/-- The declaration of a field, by whether the field is nested. -/
theorem field_declaration (name : String) (field : Field) :
    field.declaration name =
      ⟨name, firstSegment (field.sourcePath name),
        if field.IsNested name then .nested else .flat field.primitive⟩ := by
  rw [Field.declaration]
  rcases pathSegments_cases (field.sourcePath name) with
    ⟨hPoint, hFirst, hSegments⟩ | ⟨hPoint, next, others, hSegments⟩
  · rw [hSegments, hFirst, if_neg (show ¬ field.IsNested name from hPoint)]
  · rw [hSegments, if_pos (show field.IsNested name from hPoint)]

@[simp] theorem declaration_field (d : Declared) : d.declaration.field = d.name := by
  cases d with
  | field name content => simp only [declaration, field_declaration, Declared.name]
  | relationship name => rfl

@[simp] theorem declaration_wire (d : Declared) : d.declaration.wire = d.wire := by
  cases d with
  | field name content => simp only [declaration, field_declaration, wire]
  | relationship name => rfl

/-- Two claims can stand on one name just if the declarations may share it. -/
theorem compatible_iff (first second : Declared) :
    first.declaration.claim.compatible second.declaration.claim = true ↔
      first.MayShare second := by
  rw [Claim.compatible_iff]
  cases first with
  | relationship a => cases second with
    | relationship b => simp [declaration, MayShare]
    | field b second => 
      simp only [declaration, field_declaration, MayShare, iff_false, not_and]
      split <;> simp
  | field a first => cases second with
    | relationship b => simp [declaration, MayShare]
    | field b second =>
      simp only [declaration, field_declaration, MayShare]
      by_cases hFirst : first.IsNested a <;> by_cases hSecond : second.IsNested b <;>
        simp [hFirst, hSecond]

theorem agrees_iff (first second : Declared) :
    first.declaration.Agrees second.declaration ↔ first.StandsWith second := by
  simp only [Declaration.Agrees, ← Claim.compatible_iff, compatible_iff, declaration_wire,
    StandsWith]

end Declared

namespace Model

/-- One step of the scan: it stops at a declaration whose claim cannot stand with the first claim on
its name, and else goes on with claims among which each name has the same first claim. -/
theorem firstConflict?_step (claimed : List Declaration) (d : Declaration) :
    (∃ other, claimed.find? (·.wire == d.wire) = some other ∧
        other.claim.compatible d.claim = false ∧
        ∀ rest, firstConflict? claimed (d :: rest) =
          some (.wireConflict d.field d.wire other.field)) ∨
      (∀ other, claimed.find? (·.wire == d.wire) = some other →
          other.claim.compatible d.claim = true) ∧
        ∃ next, ∀ rest, firstConflict? claimed (d :: rest) = firstConflict? next rest ∧
          ∀ wire, (claimed ++ d :: rest).find? (·.wire == wire) =
            (next ++ rest).find? (·.wire == wire) := by
  rcases hFind : claimed.find? (·.wire == d.wire) with _ | other
  · refine .inr ⟨fun other h => ?_, claimed ++ [d], fun rest => ⟨?_, fun wire => ?_⟩⟩
    · cases hFind.symm.trans h
    · rw [firstConflict?, hFind]
    · rw [List.append_assoc, List.singleton_append]
  · cases hCompatible : other.claim.compatible d.claim with
    | false =>
      refine .inl ⟨other, hFind, hCompatible, fun rest => ?_⟩
      simp [firstConflict?, hFind, hCompatible]
    | true =>
      refine .inr ⟨fun other h => ?_, claimed, fun rest => ⟨?_, fun wire => ?_⟩⟩
      · obtain rfl := Option.some.inj (hFind.symm.trans h)
        exact hCompatible
      · simp [firstConflict?, hFind, hCompatible]
      · -- The name of this declaration has a claim, so it is not a name that nothing claims.
        rw [List.find?_append, List.find?_append]
        rcases hFirst : claimed.find? (·.wire == wire) with _ | first
        · have hOther := List.find?_eq_none.mp hFirst other (List.mem_of_find?_eq_some hFind)
          have hSame : other.wire = d.wire := by simpa using List.find?_some hFind
          rw [List.find?_cons_of_neg (by simpa [hSame] using hOther)]
        · rw [hFirst, Option.some_or, Option.some_or]

/-- The scan stops at the first declaration whose claim cannot stand with the first claim on its
name. -/
theorem firstConflict?_eq_some_iff {claimed rest : List Declaration} {fault : ModelFault} :
    firstConflict? claimed rest = some fault ↔
      ∃ before blamed after first, rest = before ++ blamed :: after ∧
        firstConflict? claimed before = none ∧
        (claimed ++ before).find? (·.wire == blamed.wire) = some first ∧
        first.claim.compatible blamed.claim = false ∧
        fault = .wireConflict blamed.field blamed.wire first.field := by
  induction rest generalizing claimed with
  | nil => simp [firstConflict?]
  | cons d rest ih =>
    rcases firstConflict?_step claimed d with
      ⟨other, hFind, hClaims, hStops⟩ | ⟨hClaims, next, hStep⟩
    · rw [hStops]
      constructor
      · intro h
        exact ⟨[], d, rest, other, rfl, rfl, by rwa [List.append_nil], hClaims,
          (Option.some.inj h).symm⟩
      · rintro ⟨before, blamed, after, first, hRest, hBefore, hFirst, -, rfl⟩
        cases before with
        | nil =>
          obtain ⟨rfl, rfl⟩ := List.cons.inj hRest
          rw [List.append_nil, hFind] at hFirst
          rw [Option.some.inj hFirst]
        | cons c before =>
          obtain ⟨rfl, rfl⟩ := List.cons.inj hRest
          rw [hStops] at hBefore
          cases hBefore
    · rw [(hStep rest).1, ih]
      constructor
      · rintro ⟨before, blamed, after, first, rfl, hBefore, hFirst, hRest⟩
        exact ⟨d :: before, blamed, after, first, rfl, (hStep before).1.trans hBefore,
          ((hStep before).2 _).trans hFirst, hRest⟩
      · rintro ⟨before, blamed, after, first, hRest, hBefore, hFirst, hClaim, hFault⟩
        cases before with
        | nil =>
          obtain ⟨rfl, rfl⟩ := List.cons.inj hRest
          rw [List.append_nil] at hFirst
          rw [hClaims first hFirst] at hClaim
          cases hClaim
        | cons c before =>
          obtain ⟨rfl, rfl⟩ := List.cons.inj hRest
          exact ⟨before, blamed, after, first, rfl, (hStep before).1.symm.trans hBefore,
            ((hStep before).2 _).symm.trans hFirst, hClaim, hFault⟩

variable {declared : List Declared}

theorem firstConflict?_map_eq_none_iff :
    firstConflict? [] (declared.map Declared.declaration) = none ↔
      declared.Pairwise Declared.StandsWith := by
  rw [firstConflict?_eq_none_iff List.Pairwise.nil, List.pairwise_map]
  simp [Declared.agrees_iff]

theorem find?_map_declaration (wire : String) :
    (declared.map Declared.declaration).find? (·.wire == wire) =
      (declared.find? (·.wire == wire)).map Declared.declaration := by
  simp only [List.find?_map, Function.comp_def, Declared.declaration_wire]

/-- Among declarations that stand together, one may share a name with all that have it if it may
share it with the first. -/
theorem mayShare_first_iff (hStand : declared.Pairwise Declared.StandsWith)
    {first blamed : Declared} (hFirst : declared.find? (·.wire == blamed.wire) = some first) :
    first.MayShare blamed ↔ ∀ earlier ∈ declared, earlier.StandsWith blamed := by
  have hMem : first ∈ declared := List.mem_of_find?_eq_some hFirst
  have hWire : first.wire = blamed.wire := by simpa using List.find?_some hFirst
  have : Std.Symm Declared.StandsWith := ⟨fun _ _ h => h.symm⟩
  constructor
  · intro hShares earlier hEarlier hSame
    by_cases hOther : earlier = first
    · exact hOther ▸ hShares
    · exact (hStand.forall hEarlier hMem hOther (hSame.trans hWire.symm)).trans hShares
  · exact fun h => h first hMem hWire

theorem firstConflict?_map_eq_some_iff {fault : ModelFault} :
    firstConflict? [] (declared.map Declared.declaration) = some fault ↔
      ∃ before blamed after first, declared = before ++ blamed :: after ∧
        before.Pairwise Declared.StandsWith ∧ (∃ earlier ∈ before, ¬ earlier.StandsWith blamed) ∧
        before.find? (·.wire == blamed.wire) = some first ∧
        fault = .wireConflict blamed.name blamed.wire first.name := by
  rw [firstConflict?_eq_some_iff]
  constructor
  · rintro ⟨_, _, _, _, hDeclared, hBefore, hFirst, hClaim, rfl⟩
    obtain ⟨before, rest, rfl, rfl, hRest⟩ := List.map_eq_append_iff.mp hDeclared
    obtain ⟨blamed, after, rfl, rfl, rfl⟩ := List.map_eq_cons_iff.mp hRest
    rw [firstConflict?_map_eq_none_iff] at hBefore
    rw [List.nil_append, find?_map_declaration, Declared.declaration_wire,
      Option.map_eq_some_iff] at hFirst
    obtain ⟨first, hFirst, rfl⟩ := hFirst
    refine ⟨before, blamed, after, first, rfl, hBefore, ?_, hFirst, by simp⟩
    by_contra hAll
    push Not at hAll
    have hShares := (mayShare_first_iff hBefore hFirst).mpr hAll
    rw [← Declared.compatible_iff, hClaim] at hShares
    cases hShares
  · rintro ⟨before, blamed, after, first, rfl, hBefore, hConflict, hFirst, rfl⟩
    obtain ⟨earlier, hEarlier, hConflict⟩ := hConflict
    refine ⟨before.map Declared.declaration, blamed.declaration, after.map Declared.declaration,
      first.declaration, by simp, firstConflict?_map_eq_none_iff.mpr hBefore, ?_, ?_, by simp⟩
    · rw [List.nil_append, find?_map_declaration, Declared.declaration_wire, hFirst,
        Option.map_some]
    · rw [← Bool.not_eq_true, Declared.compatible_iff, mayShare_first_iff hBefore hFirst]
      exact fun hAll => hConflict (hAll earlier hEarlier)

/-- The check of the names on the wire. A model is accepted just if any two of its declarations
stand together, so the order of its fields and of its relationships does not matter. What is blamed
in a refused model is the first declaration, fields before relationships, that does not stand with
an earlier one, and the first declaration of its name is told with it. -/
theorem firstConflict?_decides (model : Model) :
    (firstConflict? [] model.declarations = none ↔
        (Declared.ofModel model).Pairwise Declared.StandsWith) ∧
      (∀ other : Model, model.mappings.Perm other.mappings →
        model.relationships.Perm other.relationships →
        (firstConflict? [] other.declarations = none ↔
          firstConflict? [] model.declarations = none)) ∧
      ∀ fault, firstConflict? [] model.declarations = some fault ↔
        ∃ before blamed after first, Declared.ofModel model = before ++ blamed :: after ∧
          before.Pairwise Declared.StandsWith ∧
          (∃ earlier ∈ before, ¬ earlier.StandsWith blamed) ∧
          before.find? (·.wire == blamed.wire) = some first ∧
          fault = .wireConflict blamed.name blamed.wire first.name := by
  refine ⟨?_, fun other hMappings hRelationships => ?_, fun fault => ?_⟩
  · rw [← Declared.map_declaration, firstConflict?_map_eq_none_iff]
  · have hPerm : (Declared.ofModel model).Perm (Declared.ofModel other) :=
      (hMappings.map _).append (hRelationships.map _)
    rw [← Declared.map_declaration, ← Declared.map_declaration, firstConflict?_map_eq_none_iff,
      firstConflict?_map_eq_none_iff, hPerm.pairwise_iff Declared.StandsWith.symm]
  · rw [← Declared.map_declaration, firstConflict?_map_eq_some_iff]

/-- Three fields of the group `address` stand together in any order, and the relationship of that
name is blamed, beside the first of them. -/
theorem firstConflict?_address :
    let street : String × Field := ("street", { type := "string", map := some "address.street" })
    let city : String × Field := ("city", { type := "string", map := some "address.city" })
    let floor : String × Field := ("address.floor", { type := "number" })
    let model : Model :=
      ⟨[street, city, floor], [("user", { type := "User" }), ("address", { type := "Address" })]⟩
    let fields : Model := ⟨[street, city, floor], []⟩
    firstConflict? [] fields.declarations = none ∧
      firstConflict? [] { fields with mappings := [floor, street, city] }.declarations = none ∧
      firstConflict? [] model.declarations = some (.wireConflict "address" "address" "street") := by
  intro street city floor model fields
  have hFields : firstConflict? [] fields.declarations = none :=
    (firstConflict?_decides fields).1.mpr (by decide)
  refine ⟨hFields, ?_, ?_⟩
  · exact ((firstConflict?_decides fields).2.1 _ (by decide) (by decide)).mpr hFields
  · refine ((firstConflict?_decides model).2.2 _).mpr
      ⟨Declared.ofModel fields ++ [.relationship "user"], .relationship "address", [],
        .field "street" street.2, rfl, ?_⟩
    decide

end Model

end EntityGen
