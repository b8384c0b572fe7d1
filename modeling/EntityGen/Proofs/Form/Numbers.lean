import EntityGen.Proofs.Form.Alike
import EntityGen.Proofs.Form.Compiled
import EntityGen.Proofs.Form.Entries
import EntityGen.Proofs.Number.Reading
import EntityGen.Proofs.Yaml.Distinct

/-! The numbers of rules and of the chains that they compile to. A rule sets numbers, or one inside it
does, and its chain has no other number but the least length of a text. All of them have the one form
of their value: those of a document were read of its scalars. -/

namespace EntityGen

open Yaml (Value)

/-! ### Numbers of documents -/

namespace Yaml

/-- All floats in a value have the one form of their value. -/
inductive Value.Canonical : Value → Prop
  | null : Canonical .null
  | bool (b : Bool) : Canonical (.bool b)
  | int (i : Int) : Canonical (.int i)
  | float {x : Number} (form : x.Canonical) : Canonical (.float x)
  | str (s : String) : Canonical (.str s)
  | seq {list : List Value} (items : ∀ item ∈ list, Canonical item) : Canonical (.seq list)
  | map {entries : List (Value × Value)} (keys : ∀ entry ∈ entries, Canonical entry.1)
      (values : ∀ entry ∈ entries, Canonical entry.2) : Canonical (.map entries)
  | tagged {tag : String} {inner : Value} (value : Canonical inner) : Canonical (.tagged tag inner)

theorem canonical_float? {text : List Char} {x : Number} (h : float? text = some x) :
    x.Canonical := by
  rw [float?.eq_def] at h
  obtain ⟨unsigned, -, hName⟩ := Option.bind_eq_some_iff.mp h
  simp only at hName
  split at hName
  · exact Option.some.inj hName ▸ trivial
  split at hName
  · exact Option.some.inj hName ▸ trivial
  split at hName
  · exact Option.some.inj hName ▸ trivial
  · exact Number.canonical_read? (Option.eq_some_of_filter_eq_some hName)

theorem inherited_canonical : Inherited Value.Canonical where
  scalar := by
    rintro text value ⟨⟩
    · exact .null
    · exact .bool _
    · exact .int _
    · rename_i hDenoted
      exact .float (canonical_float? hDenoted)
    · exact .str _
  seq := .seq
  map := fun hParts _ => .map (fun entry h => (hParts entry h).1) fun entry h => (hParts entry h).2
  tagged := .tagged

variable {value : Value}

theorem Value.Canonical.untagged (h : value.Canonical) : value.untagged.Canonical := by
  induction value using Value.untagged.induct with
  | case1 tag inner ih =>
    cases h with
    | tagged hInner => exact ih hInner
  | case2 value hTag => rwa [Value.untagged.eq_2 value hTag]

theorem Value.Canonical.entries (h : value.Canonical) : ∀ entry ∈ value.entries,
    entry.2.Canonical := by
  have hUntagged := h.untagged
  rw [Value.entries]
  split
  · rename_i entries hMap
    rw [hMap] at hUntagged
    cases hUntagged with
    | map _ hValues => exact hValues
  · exact List.forall_mem_nil _

end Yaml

/-! ### Numbers of rules -/

namespace Form

/-- A rule sets an attribute to a number, or a rule inside it does. -/
inductive Rule.Sets (x : Number) : Rule → Prop
  | here {rule : Rule} {b : Bound} (bound : rule.bound b = some x) : Sets x rule
  | item {rule inner : Rule} (there : rule.item = some inner) (inside : Sets x inner) : Sets x rule
  | property {rule : Rule} {row : String × Rule} (there : row ∈ rule.properties)
      (inside : Sets x row.2) : Sets x rule

variable {value : Value} {x : Number}

theorem canonical_number (h : value.Canonical) (hNumber : Shape.number value = .ok x) :
    x.Canonical := by
  have hUntagged := h.untagged
  rw [Shape.number] at hNumber
  split at hNumber
  · exact Except.ok.inj hNumber ▸ Number.canonical_ofInt _
  · rename_i y hFloat
    rw [hFloat] at hUntagged
    cases hUntagged with
    | float hForm => exact Except.ok.inj hNumber ▸ hForm
  · cases hNumber

theorem optional_eq_ok {α : Type} {read : Value → Shape.Result α} {a : α}
    (h : Shape.optional read value = .ok (some a)) : read value = .ok a := by
  rw [Shape.optional.eq_def] at h
  split at h
  · cases h
  · obtain ⟨b, hRead, hSame⟩ := Result.map_eq_ok.mp h
    rwa [← Option.some.inj hSame]

theorem canonical_row {α : Type} {read : Value → Shape.Result α} {rows : List (String × α)}
    (h : value.Canonical) (hTable : Shape.table read value = .ok rows) {row : String × α}
    (hRow : row ∈ rows) : ∃ written, written.Canonical ∧ read written = .ok row.2 := by
  obtain ⟨entries, entry, hEntries, hEntry, hRead⟩ := Shape.exists_read_of_mem_table hTable hRow
  rw [← Shape.entriesAs_eq_ok hEntries] at hEntry
  exact ⟨entry.2, h.entries entry hEntry, hRead⟩

/-- The numbers that a rule sets have the one form of their value, if those of the document do. -/
theorem Rule.Sets.canonical {rule : Rule} (hSets : rule.Sets x) : ∀ {value : Value},
    value.Canonical → readRule value = .ok rule → x.Canonical := by
  induction hSets with
  | @here rule b hBound =>
    intro value hValue hRead
    obtain ⟨draft, hDraft, rfl⟩ := readRule_eq_ok hRead
    have hField := Shape.record_field (hasField_bound b) hDraft
    rw [hBound] at hField
    cases hField with
    | there hUnder hNumber =>
      obtain ⟨key, hKey, -⟩ := hUnder
      exact canonical_number (hValue.entries _ hKey) (optional_eq_ok hNumber)
  | @item rule inner hThere _ ih =>
    intro value hValue hRead
    obtain ⟨draft, hDraft, rfl⟩ := readRule_eq_ok hRead
    have hField := Shape.record_field hasField_item hDraft
    rw [hThere] at hField
    cases hField with
    | there hUnder hInner =>
      obtain ⟨key, hKey, -⟩ := hUnder
      exact ih (hValue.entries _ hKey) (optional_eq_ok hInner)
  | @property rule row hThere _ ih =>
    intro value hValue hRead
    obtain ⟨draft, hDraft, rfl⟩ := readRule_eq_ok hRead
    have hField := Shape.record_field hasField_properties hDraft
    generalize draft.record.properties = rows at hThere hField
    cases hField with
    | there hUnder hTable =>
      obtain ⟨key, hKey, -⟩ := hUnder
      obtain ⟨written, hWritten, hRow⟩ := canonical_row (hValue.entries _ hKey) hTable hThere
      exact ih hWritten hRow
    | missing => cases hThere

/-- The numbers that the rules of a document set have the one form of their value. -/
theorem canonical_of_sets {text : String} {forms : Forms} {name : String} {model : FormModel}
    (hText : Yaml.parse? text = some value) (hForms : Forms.ofValue value = .ok forms)
    (hModel : (name, model) ∈ forms.models) : ∀ action ∈ model, ∀ field ∈ action.2,
      field.2.Sets x → x.Canonical := by
  intro action hAction field hField hSets
  have hValue := Yaml.inherited_canonical.parse? hText
  rcases Forms.ofValue_eq_ok.mp hForms with ⟨-, hEmpty⟩ | ⟨entries, rfl, hTable, -⟩
  · rw [hEmpty] at hModel
    cases hModel
  · obtain ⟨actions, hActions, hReadActions⟩ := canonical_row hValue hTable hModel
    obtain ⟨fields, hFields, hReadFields⟩ := canonical_row hActions hReadActions hAction
    obtain ⟨written, hWritten, hRead⟩ := canonical_row hFields hReadFields hField
    exact hSets.canonical hWritten hRead

/-! ### Numbers of chains -/

def Param.number? : Param → Option Number
  | .number x => some x
  | .text _ => none

/-- The numbers among the parameters of a message that is localized. -/
def messageNumbers : Option Message → List Number
  | some (.localized _ params) => params.filterMap (·.2.number?)
  | _ => []

/-- The number of a check. The least length is one, unless it is checked by a predicate. -/
def Check.number? (wrapped : Bool) : Check → Option Number
  | .bound _ x => some x
  | .requiredMin => if wrapped then none else some (.ofInt 1)
  | _ => none

def Constraint.numbers (wrapped : Bool) (c : Constraint) : List Number :=
  (c.check.number? wrapped).toList ++ if c.check.silent then [] else messageNumbers c.message

def constraintNumbers (wrapped : Bool) : List Constraint → List Number
  | [] => []
  | c :: rest =>
    c.numbers wrapped ++ constraintNumbers (wrapped || TypeScript.wrapsChain c.check) rest

mutual

/-- The numbers of a chain and of those inside it, in the order in which they are written. -/
def Chain.numbers : Chain → List Number
  | .mk base message constraints =>
    baseNumbers message base ++ constraintNumbers false constraints

def baseNumbers (message : Option Message) : Base → List Number
  | .array item => item.numbers ++ messageNumbers message
  | .object properties => propertyNumbers properties ++ messageNumbers message
  | .any => []
  | _ => messageNumbers message

def propertyNumbers : List (String × Chain) → List Number
  | [] => []
  | (_, chain) :: rest => chain.numbers ++ propertyNumbers rest

end

variable {rule : Rule}

/-- A number that a rule sets, or the least length of a text. -/
def Rule.Has (x : Number) (rule : Rule) : Prop := x = .ofInt 1 ∨ rule.Sets x

theorem mem_messageNumbers {key : String} {params : Params} {message : Option Message}
    (h : rule.Shows key params message) (hx : x ∈ messageNumbers message) :
    x ∈ params.filterMap (·.2.number?) := by
  cases h with
  | localized => exact hx
  | literal => cases hx
  | nothing => cases hx

/-- The numbers of a constraint of a rule are that of its check and those of its parameters. -/
theorem Rule.Constrains.number_cases {constraints : List Constraint} (h : rule.Constrains constraints)
    {c : Constraint} (hc : c ∈ constraints) {wrapped : Bool} (hx : x ∈ c.numbers wrapped) :
    c.check.number? wrapped = some x ∨ x ∈ c.check.params.filterMap (·.2.number?) := by
  rw [Constraint.numbers, List.mem_append, Option.mem_toList] at hx
  refine hx.imp id fun hMessage => ?_
  split at hMessage
  · cases hMessage
  · rename_i hLoud
    exact mem_messageNumbers ((h.messages c hc).shows (by simpa using hLoud)) hMessage

theorem Rule.Constrains.has {constraints : List Constraint} (h : rule.Constrains constraints)
    {c : Constraint} (hc : c ∈ constraints) {wrapped : Bool} (hx : x ∈ c.numbers wrapped) :
    rule.Has x := by
  have hAsks := (h.checks c.check).mp ⟨c, hc, rfl⟩
  have hCases := h.number_cases hc hx
  generalize c.check = check at hAsks hCases
  cases hAsks with
  | @bound b y hSet =>
    obtain rfl : y = x := by simpa [Check.number?, Check.params, Param.number?, eq_comm] using hCases
    exact .inr (.here hSet)
  | requiredMin =>
    left
    cases wrapped <;> simpa [Check.number?, Check.params, Param.number?, eq_comm] using hCases
  | _ => simp [Check.number?, Check.params, Param.number?] at hCases

theorem Rule.Constrains.all_have {constraints : List Constraint}
    (h : ∀ c ∈ constraints, ∀ wrapped, ∀ x ∈ c.numbers wrapped, rule.Has x) (wrapped : Bool) :
    ∀ x ∈ constraintNumbers wrapped constraints, rule.Has x := by
  induction constraints generalizing wrapped with
  | nil => exact List.forall_mem_nil _
  | cons c rest ih =>
    rw [List.forall_mem_cons] at h
    rw [constraintNumbers]
    exact List.forall_mem_append.mpr ⟨h.1 wrapped, ih h.2 _⟩

mutual

/-- A chain that is as a rule says has no numbers but the rule's. -/
theorem has_of_describes : ∀ {rule : Rule} {chain : Chain}, rule.Describes chain →
    ∀ x ∈ chain.numbers, rule.Has x
  | _, .mk _ message _, .mk hBase hMessage hConstrains => by
    have hSilent : messageNumbers message = [] :=
      List.eq_nil_iff_forall_not_mem.mpr fun x hx => by simpa using mem_messageNumbers hMessage hx
    rw [Chain.numbers]
    exact List.forall_mem_append.mpr ⟨has_of_hasBase hBase hSilent,
      Rule.Constrains.all_have (fun c hc _ _ => hConstrains.has hc) false⟩

theorem has_of_hasBase : ∀ {rule : Rule} {base : Base} {message : Option Message},
    rule.HasBase base → messageNumbers message = [] → ∀ x ∈ baseNumbers message base, rule.Has x
  | rule, _, _, .array _ hThere hDescribes, hSilent => by
    intro x hx
    rw [baseNumbers, hSilent, List.append_nil] at hx
    exact (has_of_describes hDescribes x hx).imp_right (.item hThere)
  | _, _, _, .anyItems _ _, hSilent => by
    rw [baseNumbers, hSilent]
    exact List.forall_mem_nil _
  | rule, _, _, .object _ hDescribe, hSilent => by
    intro x hx
    rw [baseNumbers, hSilent, List.append_nil] at hx
    obtain ⟨row, hRow, hHas⟩ := has_of_describe hDescribe x hx
    exact hHas.imp_right (.property hRow)
  | _, _, _, .string _, hSilent => by simp [baseNumbers, hSilent]
  | _, _, _, .number _, hSilent => by simp [baseNumbers, hSilent]
  | _, _, _, .boolean _, hSilent => by simp [baseNumbers, hSilent]
  | _, _, _, .date _, hSilent => by simp [baseNumbers, hSilent]
  | _, _, _, .any _, _ => List.forall_mem_nil _

theorem has_of_describe : ∀ {rules : List (String × Rule)} {rows : List (String × Chain)},
    RulesDescribe rules rows → ∀ x ∈ propertyNumbers rows, ∃ row ∈ rules, row.2.Has x
  | _, _, .nil => List.forall_mem_nil _
  | _, _, .cons hDescribes hRest => by
    intro x hx
    rw [propertyNumbers, List.mem_append] at hx
    rcases hx with hx | hx
    · exact ⟨_, List.mem_cons_self, has_of_describes hDescribes x hx⟩
    · obtain ⟨row, hRow, hHas⟩ := has_of_describe hRest x hx
      exact ⟨row, List.mem_cons_of_mem _ hRow, hHas⟩

end

theorem compileProperties_eq_map (rules : List (String × Rule)) :
    compileProperties rules = rules.map fun (name, rule) => (name, compile rule) := by
  induction rules with
  | nil => rfl
  | cons row rest ih => rw [compileProperties, ih, List.map_cons]

/-- The chains of fields have no numbers but those of the rules. -/
theorem has_of_mem_fields {rules : List (String × Rule)}
    (h : x ∈ propertyNumbers (rules.map fun (name, rule) => (name, compile rule))) :
    x = .ofInt 1 ∨ ∃ row ∈ rules, row.2.Sets x := by
  rw [← compileProperties_eq_map] at h
  obtain ⟨row, hRow, hHas⟩ := has_of_describe (describe_compileProperties rules) x h
  exact hHas.imp_right fun hSets => ⟨row, hRow, hSets⟩

end Form

end EntityGen
