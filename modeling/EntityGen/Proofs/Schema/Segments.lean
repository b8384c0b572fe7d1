import EntityGen.Proofs.Schema.WireNames
import EntityGen.Proofs.Wire

/-! Empty segments of paths. A path has an empty segment if it begins or ends with a point or has
two points side by side. Reading a schema refuses such a path where a field is mapped, but not the
name of a field that is not mapped, and it does not look at the names of relationships. -/

namespace EntityGen

namespace Text

variable {α : Type} [BEq α] [LawfulBEq α] {separator : α}

/-- The first part is empty just if the list begins with a separator or has nothing in it. -/
theorem head?_split_eq_nil_iff {items : List α} :
    (split separator items).head? = some [] ↔ items = [] ∨ items.head? = some separator := by
  cases items with
  | nil => simp [split]
  | cons c rest =>
    rw [split]
    by_cases hSame : c = separator
    · simp [hSame]
    · rcases hRest : split separator rest with _ | ⟨first, others⟩ <;> simp [hSame]

/-- A part after the first is empty just if the list ends with a separator or has two of them side
by side. -/
theorem nil_mem_tail_split_iff {items : List α} :
    [] ∈ (split separator items).tail ↔
      items.getLast? = some separator ∨ [separator, separator] <:+: items := by
  induction items with
  | nil => simp [split]
  | cons c rest ih =>
    have hLast : (c :: rest).getLast? = some separator ↔
        (rest = [] ∧ c = separator) ∨ rest.getLast? = some separator := by
      cases rest <;> simp
    have hInfix : [separator, separator] <:+: c :: rest ↔
        (c = separator ∧ rest.head? = some separator) ∨ [separator, separator] <:+: rest := by
      rw [List.infix_cons_iff, List.cons_prefix_cons]
      cases rest with
      | nil => simp
      | cons next rest => simp [eq_comm (a := separator)]
    have hParts : [] ∈ split separator rest ↔
        (split separator rest).head? = some [] ∨ [] ∈ (split separator rest).tail := by
      rcases split separator rest with _ | ⟨first, others⟩ <;> simp [eq_comm]
    rw [hLast, hInfix, split]
    by_cases hSame : c = separator
    · rw [if_pos (by simp [hSame]), List.tail_cons, hParts, ih, head?_split_eq_nil_iff]
      simp only [hSame, and_true, true_and]
      exact or_or_or_comm
    · rw [if_neg (by simp [hSame])]
      simp only [hSame, and_false, false_and, false_or]
      rw [← ih]
      rcases split separator rest with _ | ⟨first, others⟩ <;> rfl

/-- The last of two or more parts is empty just if the list ends with a separator. -/
theorem getLast?_tail_split_eq_nil_iff {items : List α} :
    (split separator items).tail.getLast? = some [] ↔ items.getLast? = some separator := by
  by_cases hMem : separator ∈ items
  · obtain ⟨after, before, hItems, hAfter⟩ :=
      List.eq_append_cons_of_mem (List.mem_reverse.mpr hMem)
    obtain rfl : items = before.reverse ++ separator :: after.reverse := by
      rw [← List.reverse_reverse items, hItems]
      simp
    have hFree : separator ∉ after.reverse := by simpa using hAfter
    rw [split_append, split_of_notMem hFree, List.tail_append_of_ne_nil (split_ne_nil _ _),
      List.getLast?_concat, List.getLast?_append_cons, List.getLast?_cons, Option.some.injEq,
      Option.some.injEq]
    cases after with
    | nil => simp
    | cons c after =>
      rw [List.mem_cons, not_or] at hAfter
      simp [Ne.symm hAfter.1]
  · rw [split_of_notMem hMem, List.tail_cons, List.getLast?_nil]
    exact iff_of_false (by simp) fun hLast => hMem (List.mem_of_getLast? hLast)

end Text

theorem hasDoublePoint_iff {chars : List Char} :
    hasDoublePoint chars = true ↔ ['.', '.'] <:+: chars := by
  fun_induction hasDoublePoint chars with
  | case1 rest => simp [List.infix_cons_iff, List.cons_prefix_cons]
  | case2 c rest hOther ih =>
    rw [ih, List.infix_cons_iff, List.cons_prefix_cons]
    refine (or_iff_right ?_).symm
    rintro ⟨rfl, after, rfl⟩
    exact hOther _ rfl rfl
  | case3 => simp

/-- Whether a text begins or ends with a point. -/
def HasLooseEnd (text : String) : Prop :=
  text.toList.head? = some '.' ∨ text.toList.getLast? = some '.'

instance (text : String) : Decidable (HasLooseEnd text) :=
  inferInstanceAs (Decidable (_ ∨ _))

section Paths

variable {path : String}

theorem map_ofList_eq_some_empty {part : Option (List Char)} :
    part.map String.ofList = some "" ↔ part = some [] := by
  cases part <;> simp

theorem head?_pathSegments_iff :
    (pathSegments path).head? = some "" ↔ path = "" ∨ path.toList.head? = some '.' := by
  rw [pathSegments, Text.parts, List.head?_map, map_ofList_eq_some_empty,
    Text.head?_split_eq_nil_iff, String.toList_eq_nil_iff]

theorem getLast?_tail_pathSegments_iff :
    (pathSegments path).tail.getLast? = some "" ↔ path.toList.getLast? = some '.' := by
  rw [pathSegments, Text.parts, ← List.map_tail, List.getLast?_map, map_ofList_eq_some_empty,
    Text.getLast?_tail_split_eq_nil_iff]

/-- A path has an empty segment just if it is empty, begins or ends with a point, or has two points
side by side. -/
theorem empty_mem_pathSegments_iff :
    "" ∈ pathSegments path ↔
      path = "" ∨ HasLooseEnd path ∨ hasDoublePoint path.toList = true := by
  have hTail : "" ∈ (pathSegments path).tail ↔
      path.toList.getLast? = some '.' ∨ hasDoublePoint path.toList = true := by
    rw [pathSegments, Text.parts, ← List.map_tail, ← String.ofList_nil,
      List.mem_map_of_injective (fun _ _ => String.ofList_injective), Text.nil_mem_tail_split_iff,
      hasDoublePoint_iff]
  have hParts : "" ∈ pathSegments path ↔
      (pathSegments path).head? = some "" ∨ "" ∈ (pathSegments path).tail := by
    rcases pathSegments path with _ | ⟨first, others⟩ <;> simp [eq_comm]
  rw [hParts, hTail, head?_pathSegments_iff, HasLooseEnd, or_assoc, or_assoc]

namespace WirePath

/-- The names that a place on the wire object is reached by. -/
def names : WirePath → List String
  | direct name => [name]
  | nested outer inner => [outer, inner]

/-- Of a path only the first and the last segment are names on the wire, so an empty segment between
them leaves no trace there. -/
theorem empty_mem_names_iff : "" ∈ (ofPath path).names ↔ path = "" ∨ HasLooseEnd path := by
  have hHead : (pathSegments path).head? = some "" ↔ path = "" ∨ path.toList.head? = some '.' :=
    head?_pathSegments_iff
  have hLast : (pathSegments path).tail.getLast? = some "" ↔ path.toList.getLast? = some '.' :=
    getLast?_tail_pathSegments_iff
  rcases pathSegments_cases path with ⟨hPoint, -, hSegments⟩ | ⟨-, next, others, hSegments⟩
  · have hPlace : ofPath path = .direct path := by
      rw [ofPath.eq_def, hSegments]
    have hEnds : ¬ HasLooseEnd path := by
      rintro (hFirst | hFinal)
      · exact hPoint (List.mem_of_head? hFirst)
      · exact hPoint (List.mem_of_getLast? hFinal)
    rw [hPlace, names, List.mem_singleton, or_iff_left hEnds, eq_comm]
  · have hPlace : ofPath path =
        .nested (firstSegment path) ((next :: others).getLast (by simp)) := by
      rw [ofPath.eq_def, hSegments]
    rw [hSegments, List.head?_cons, Option.some.injEq] at hHead
    rw [hSegments, List.tail_cons, List.getLast?_eq_some_getLast (by simp), Option.some.injEq]
      at hLast
    rw [hPlace, names, List.mem_cons, List.mem_singleton, @eq_comm _ "", @eq_comm _ "", hHead,
      hLast, HasLooseEnd, or_assoc]

end WirePath

end Paths

namespace Transfer

/-- All names of the wire object: those of its members, of their properties and of its relations. -/
def wireNames (transfer : Transfer) : List String :=
  transfer.members.flatMap (fun member => member.slot.1 :: member.propertyNames) ++
    transfer.relations.map (·.name)

/-- The names of the wire object of a model are those that the places of its fields are reached by,
and those of its relationships. -/
theorem mem_wireNames_iff {name : String} {model : Model} {wire : String} :
    wire ∈ (ofModel name model).wireNames ↔
      (∃ row ∈ model.mappings, wire ∈ (row.2.place row.1).names) ∨
        wire ∈ model.relationships.map (·.1) := by
  have hRelations : (ofModel name model).relations.map (·.name) =
      model.relationships.map (·.1) := by
    simp [ofModel, Model.relations]
  rw [wireNames, List.mem_append, hRelations, List.mem_flatMap]
  refine or_congr_left ⟨?_, ?_⟩
  · rintro ⟨member, hMember, hWire⟩
    change member ∈ ofFields model.mappings at hMember
    rcases List.mem_cons.mp hWire with rfl | hProperty
    · obtain ⟨a, field, hField, hSlot⟩ := mem_slots_ofFields.mp (List.mem_map_of_mem hMember)
      refine ⟨(a, field), hField, ?_⟩
      rw [← hSlot]
      cases field.place a <;> simp [WirePath.names, WirePath.slot]
    · rw [(sums_ofFields model.mappings member hMember).properties, List.mem_eraseDups,
        propertiesIn, List.mem_filterMap] at hProperty
      obtain ⟨row, hRow, hProperty⟩ := hProperty
      refine ⟨row, hRow, ?_⟩
      cases hPlace : row.2.place row.1 with
      | direct => simp [hPlace, WirePath.property?] at hProperty
      | nested outer inner =>
        rw [hPlace, WirePath.property?, Option.ite_none_right_eq_some, Option.some.injEq]
          at hProperty
        simp [WirePath.names, hProperty.2]
  · rintro ⟨⟨a, field⟩, hField, hWire⟩
    obtain ⟨member, hMember, type, hProvides⟩ := declared_ofFields hField
    refine ⟨member, hMember, ?_⟩
    change wire ∈ (field.place a).names at hWire
    rw [List.mem_cons, hProvides.slot_eq]
    cases hPlace : field.place a with
    | direct =>
      rw [hPlace, WirePath.names, List.mem_singleton] at hWire
      exact .inl hWire
    | nested outer inner =>
      rw [hPlace, WirePath.names, List.mem_cons, List.mem_singleton] at hWire
      refine hWire.imp_right fun hInner => ?_
      rw [hPlace] at hProvides
      cases member with
      | flat => exact hProvides.elim
      | group key required properties =>
        exact hInner ▸ List.mem_map_of_mem hProvides.2

end Transfer

namespace Model

variable {name : String} {field : Field}

theorem fieldFault?_eq_none_iff : fieldFault? name field = none ↔
    name ≠ "" ∧ ∀ path, field.map = some path → "" ∉ pathSegments path := by
  rw [fieldFault?]
  rcases field.map with _ | path
  · simp
  · by_cases hName : name = "" <;> simp [hName, List.any_eq_true]

/-- The path of an accepted field has an empty segment just if it is the field's own name, which is
not looked at for its points. -/
theorem empty_mem_sourcePath_iff (hField : fieldFault? name field = none) :
    "" ∈ pathSegments (field.sourcePath name) ↔
      field.map = none ∧ (HasLooseEnd name ∨ hasDoublePoint name.toList = true) := by
  obtain ⟨hName, hPath⟩ := fieldFault?_eq_none_iff.mp hField
  rw [Field.sourcePath]
  rcases hMap : field.map with _ | path
  · rw [Option.getD_none, empty_mem_pathSegments_iff, or_iff_right hName, eq_self, true_and]
  · exact iff_of_false (hPath path hMap) (by simp)

theorem empty_mem_place_iff (hField : fieldFault? name field = none) :
    "" ∈ (field.place name).names ↔ field.map = none ∧ HasLooseEnd name := by
  obtain ⟨hName, hPath⟩ := fieldFault?_eq_none_iff.mp hField
  rw [Field.place, WirePath.empty_mem_names_iff, Field.sourcePath]
  rcases hMap : field.map with _ | path
  · rw [Option.getD_none, or_iff_right hName, eq_self, true_and]
  · have hSegments := hPath path hMap
    rw [empty_mem_pathSegments_iff, not_or, not_or] at hSegments
    exact iff_of_false (by simp [hSegments]) (by simp)

end Model

namespace Schema

/-- No model of a schema that is read has a fault. -/
theorem fault?_of_mem_models {value : Yaml.Value} {schema : Schema}
    (hRead : ofValue value = .ok schema) {name : String} {model : Model}
    (hModel : (name, model) ∈ schema.models) : model.fault? = none := by
  obtain ⟨written, hReads⟩ := exists_readEntry_of_mem_models hRead hModel
  obtain ⟨-, -, -, -, hFault⟩ := readEntry_eq_model_iff.mp hReads
  exact hFault

/-- The empty names that a schema lets through. The path of a field has an empty segment just if the
field is not mapped and its name begins or ends with a point or has two points side by side. No name
of the wire object is empty just if no name of such a field begins or ends with a point and no
relationship is without a name. -/
theorem segments_nonempty_iff {value : Yaml.Value} {schema : Schema}
    (hRead : ofValue value = .ok schema) {name : String} {model : Model}
    (hModel : (name, model) ∈ schema.models) :
    (∀ row ∈ model.mappings, "" ∈ pathSegments (row.2.sourcePath row.1) ↔
        row.2.map = none ∧ (HasLooseEnd row.1 ∨ hasDoublePoint row.1.toList = true)) ∧
      ("" ∉ (Transfer.ofModel name model).wireNames ↔
        (∀ row ∈ model.mappings, row.2.map = none → ¬ HasLooseEnd row.1) ∧
          "" ∉ model.relationships.map (·.1)) := by
  have hFields := (Model.fault?_eq_none_iff.mp (fault?_of_mem_models hRead hModel)).1
  refine ⟨fun row hRow => Model.empty_mem_sourcePath_iff (hFields row hRow), ?_⟩
  rw [Transfer.mem_wireNames_iff, not_or]
  refine and_congr_left fun _ => ⟨fun hNone row hRow hMap hLoose => hNone ⟨row, hRow, ?_⟩, ?_⟩
  · exact (Model.empty_mem_place_iff (hFields row hRow)).mpr ⟨hMap, hLoose⟩
  · rintro hStrict ⟨row, hRow, hEmpty⟩
    obtain ⟨hMap, hLoose⟩ := (Model.empty_mem_place_iff (hFields row hRow)).mp hEmpty
    exact hStrict row hRow hMap hLoose

/-- A document with one model: a field whose name ends with a point, one with two points side by
side in its name, and a relationship without a name. -/
def looseNames : Yaml.Value :=
  .map [(.str "User", .map [(.str "type", .str "model"),
    (.str "mappings", .map [
      (.str "home.", .map [(.str "type", .str "string")]),
      (.str "work..street", .map [(.str "type", .str "string")])]),
    (.str "relationships", .map [(.str "", .map [(.str "type", .str "User")])])])]

/-- The document is read. Both of its paths have an empty segment, and its wire object has an empty
name. -/
theorem segments_empty : ∃ schema name model, ofValue looseNames = .ok schema ∧
    (name, model) ∈ schema.models ∧
    (∀ row ∈ model.mappings, "" ∈ pathSegments (row.2.sourcePath row.1)) ∧
    "" ∈ (Transfer.ofModel name model).wireNames := by
  refine ⟨_, "User", ⟨[("home.", { type := "string" }), ("work..street", { type := "string" })],
    [("", { type := "User" })]⟩, rfl, List.mem_cons_self, ?_⟩
  have hRead : ofValue looseNames = .ok _ := rfl
  obtain ⟨hSegments, hNames⟩ := segments_nonempty_iff hRead List.mem_cons_self
  refine ⟨fun row hRow => (hSegments row hRow).mpr ?_, ?_⟩
  · revert row
    decide
  · by_contra hEmpty
    exact (hNames.mp hEmpty).2 List.mem_cons_self

end Schema

end EntityGen
