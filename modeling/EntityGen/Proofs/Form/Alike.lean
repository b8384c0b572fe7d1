import EntityGen.Form.Reader
import EntityGen.Proofs.Shape.Alike

/-! Rules that are read from values that are alike. Their attributes agree, and at every depth their
items and properties do, the properties in another order perhaps. -/

namespace EntityGen.Form

open Yaml (Value)
open Yaml.Value (Alike Corresponds IsUnder)

/-! ### Rules as records

A rule is read like any other record, its properties like any other table. -/

theorem readNamedRules_eq (entries : List (Value × Value)) (done : List (String × Rule)) :
    readNamedRules entries done = entries.foldlM (fun done entry => do
      let key ← Shape.text entry.1
      return Shape.put key (← readRule entry.2) done) done := by
  induction entries generalizing done with
  | nil => rfl
  | cons entry rest ih =>
    obtain ⟨key, value⟩ := entry
    rw [readNamedRules, List.foldlM_cons]
    rcases Shape.text key with _ | name
    · rfl
    · rcases hRule : readRule value with _ | rule
      · simp [bind, Except.bind]
      · simp [bind, Except.bind, ih, pure, Except.pure]

theorem readProperties_eq (value : Value) : readProperties value = Shape.table readRule value := by
  induction value using Yaml.Value.untagged.induct with
  | case1 tag value ih => rw [readProperties, ih]; rfl
  | case2 value hValue =>
    cases value with
    | tagged tag inner => exact absurd rfl (hValue tag inner)
    | map entries => rw [readProperties, readNamedRules_eq]; rfl
    | _ => rw [readProperties] <;> first | rfl | simp

/-- Reads the value of an attribute into a rule. -/
def readAttribute (value : Value) (rule : Rule) : Attribute → Shape.Result Rule
  | .type => (Shape.optional Shape.text value).map fun type => { rule with type }
  | .flag f => (Shape.flag value).map fun b => { rule with flag := setAt rule.flag f b }
  | .bound b =>
    (Shape.optional Shape.number value).map fun x => { rule with bound := setAt rule.bound b x }
  | .pattern p =>
    (Shape.optional Shape.text value).map fun s => { rule with pattern := setAt rule.pattern p s }
  | .messages => (Shape.table Shape.text value).map fun messages => { rule with messages }
  | .i18n => (Shape.table Shape.text value).map fun i18n => { rule with i18n }
  | .item => (Shape.optional readRule value).map fun item => { rule with item }
  | .properties => (Shape.table readRule value).map fun properties => { rule with properties }

/-- Reads an attribute of a rule by name. -/
def ruleStep (name : String) (value : Value) (rule : Rule) : Option (Shape.Result Rule) :=
  (Attribute.ofName? name).map (readAttribute value rule)

/-- An attribute that a rule does not know is refused. -/
def refuse (name : String) : Shape.Result Unit :=
  .error (.unknownField name (Attribute.all.map Attribute.name))

theorem readAttributes_eq (entries : List (Value × Value)) (draft : RuleDraft) :
    readAttributes entries draft = entries.foldlM (Shape.readEntry ruleStep refuse) draft := by
  induction entries generalizing draft with
  | nil => rfl
  | cons entry rest ih =>
    obtain ⟨key, value⟩ := entry
    rw [readAttributes, List.foldlM_cons, Shape.readEntry]
    rcases hName : Shape.fieldName key with _ | name
    · rfl
    · simp only [bind, Except.bind, ruleStep]
      rcases Attribute.ofName? name with _ | known
      · rfl
      · simp only [Option.map_some]
        split
        · rfl
        · simp only [← ih]
          cases known with
          | item =>
            cases value with
            | null => rfl
            | _ =>
              simp only [readAttribute, Shape.optional]
              generalize readRule _ = result
              cases result <;> rfl
          | _ =>
            simp only [readAttribute, readProperties_eq]
            generalize Except.map _ _ = result
            cases result <;> rfl

/-- A rule is a record of its attributes. -/
theorem readRule_eq_ok {value : Value} {rule : Rule} (h : readRule value = .ok rule) :
    ∃ draft, Shape.record ruleStep refuse {} value.entries = .ok draft ∧ rule = draft.record := by
  induction value using Yaml.Value.untagged.induct with
  | case1 tag value ih => exact ih (by rwa [readRule] at h)
  | case2 value hValue =>
    cases value with
    | tagged tag inner => exact absurd rfl (hValue tag inner)
    | map entries =>
      rw [readRule, Result.map_eq_ok] at h
      obtain ⟨draft, hDraft, rfl⟩ := h
      rw [readAttributes_eq] at hDraft
      exact ⟨draft, hDraft, rfl⟩
    | null =>
      rw [readRule] at h
      exact ⟨_, rfl, (Except.ok.inj h).symm⟩
    | _ => simp [readRule] at h

/-! ### Attributes -/

theorem ofName?_name (known : Attribute) : Attribute.ofName? known.name = some known := by
  rcases known with _ | f | b | p | _ | _ | _ | _
  · decide
  · cases f <;> decide
  · cases b <;> decide
  · cases p <;> decide
  all_goals decide

theorem ofName?_eq_some {name : String} {known : Attribute}
    (h : Attribute.ofName? name = some known) : known.name = name := by
  simpa using List.find?_some h

/-- A rule differs from another in the value of one attribute at most. -/
structure ChangesOnly (known : Attribute) (rule next : Rule) : Prop where
  type : known ≠ .type → next.type = rule.type
  flag : ∀ f, known ≠ .flag f → next.flag f = rule.flag f
  bound : ∀ b, known ≠ .bound b → next.bound b = rule.bound b
  pattern : ∀ p, known ≠ .pattern p → next.pattern p = rule.pattern p
  messages : known ≠ .messages → next.messages = rule.messages
  i18n : known ≠ .i18n → next.i18n = rule.i18n
  item : known ≠ .item → next.item = rule.item
  properties : known ≠ .properties → next.properties = rule.properties

theorem readAttribute_changesOnly {value : Value} {rule next : Rule} {known : Attribute}
    (h : readAttribute value rule known = .ok next) : ChangesOnly known rule next := by
  cases known <;> obtain ⟨_, -, rfl⟩ := Result.map_eq_ok.mp h <;>
    constructor <;> simp +contextual [setAt, eq_comm]

/-- An attribute is a field of a rule if `set` puts what is read of it where `get` finds it, and
`get` depends on no other attribute. -/
theorem hasField_attribute {β : Type} (known : Attribute) {read : Value → Shape.Result β}
    {get : Rule → β} (set : Rule → β → Rule)
    (hReads : ∀ value rule, readAttribute value rule known = (read value).map (set rule))
    (hGet : ∀ rule x, get (set rule x) = x)
    (hKeeps : ∀ other, other ≠ known → ∀ rule next, ChangesOnly other rule next →
      get next = get rule) :
    Shape.HasField ruleStep known.name read get where
  known := fun value rule => by simp [ruleStep, ofName?_name]
  reads := fun value rule next h => by
    rw [ruleStep, ofName?_name] at h
    have hNext := Option.some.inj h
    rw [hReads, Result.map_eq_ok] at hNext
    obtain ⟨x, hx, rfl⟩ := hNext
    rw [hx, hGet]
  keeps := fun name hName value rule next h => by
    obtain ⟨other, hOther, hNext⟩ := Option.map_eq_some_iff.mp h
    refine hKeeps other (fun hSame => hName ?_) rule next (readAttribute_changesOnly hNext)
    rw [← ofName?_eq_some hOther, hSame]

theorem hasField_type : Shape.HasField ruleStep "type" (Shape.optional Shape.text) Rule.type :=
  hasField_attribute .type (fun rule type => { rule with type }) (fun _ _ => rfl)
    (fun _ _ => rfl) (fun _ hOther _ _ h => h.type hOther)

theorem hasField_flag (f : Flag) : Shape.HasField ruleStep f.name Shape.flag (·.flag f) :=
  hasField_attribute (.flag f) (fun rule b => { rule with flag := setAt rule.flag f b })
    (fun _ _ => rfl) (fun _ _ => if_pos rfl) (fun _ hOther _ _ h => h.flag f hOther)

theorem hasField_bound (b : Bound) :
    Shape.HasField ruleStep b.name (Shape.optional Shape.number) (·.bound b) :=
  hasField_attribute (.bound b) (fun rule x => { rule with bound := setAt rule.bound b x })
    (fun _ _ => rfl) (fun _ _ => if_pos rfl) (fun _ hOther _ _ h => h.bound b hOther)

theorem hasField_pattern (p : Pattern) :
    Shape.HasField ruleStep p.name (Shape.optional Shape.text) (·.pattern p) :=
  hasField_attribute (.pattern p) (fun rule s => { rule with pattern := setAt rule.pattern p s })
    (fun _ _ => rfl) (fun _ _ => if_pos rfl) (fun _ hOther _ _ h => h.pattern p hOther)

theorem hasField_messages :
    Shape.HasField ruleStep "messages" (Shape.table Shape.text) Rule.messages :=
  hasField_attribute .messages (fun rule messages => { rule with messages }) (fun _ _ => rfl)
    (fun _ _ => rfl) (fun _ hOther _ _ h => h.messages hOther)

theorem hasField_i18n : Shape.HasField ruleStep "i18n" (Shape.table Shape.text) Rule.i18n :=
  hasField_attribute .i18n (fun rule i18n => { rule with i18n }) (fun _ _ => rfl)
    (fun _ _ => rfl) (fun _ hOther _ _ h => h.i18n hOther)

theorem hasField_item : Shape.HasField ruleStep "item" (Shape.optional readRule) Rule.item :=
  hasField_attribute .item (fun rule item => { rule with item }) (fun _ _ => rfl)
    (fun _ _ => rfl) (fun _ hOther _ _ h => h.item hOther)

theorem hasField_properties :
    Shape.HasField ruleStep "properties" (Shape.table readRule) Rule.properties :=
  hasField_attribute .properties (fun rule properties => { rule with properties })
    (fun _ _ => rfl) (fun _ _ => rfl) (fun _ hOther _ _ h => h.properties hOther)

/-! ### Rearranged rules -/

/-- Two rules differ, at every depth, in the order of messages and properties at most, and in the
signs of zeros. -/
inductive Rule.Rearranged : Rule → Rule → Prop
  | mk {rule other : Rule} (type : rule.type = other.type) (flag : ∀ f, rule.flag f = other.flag f)
      (bound : ∀ b, Option.Rel (fun x y => x.sameValue y = true) (rule.bound b) (other.bound b))
      (pattern : ∀ p, rule.pattern p = other.pattern p)
      (messages : Shuffled Eq rule.messages other.messages)
      (i18n : Shuffled Eq rule.i18n other.i18n)
      (hasItem : rule.item.isSome = other.item.isSome)
      (item : ∀ i j, rule.item = some i → other.item = some j → Rearranged i j)
      (names : (rule.properties.map (·.1)).Perm (other.properties.map (·.1)))
      (nodup : (rule.properties.map (·.1)).Nodup)
      (properties : ∀ name p q, (name, p) ∈ rule.properties → (name, q) ∈ other.properties →
        Rearranged p q) : Rearranged rule other

theorem sizeOf_lt_of_isUnder {a value : Value} {name : String}
    (h : IsUnder a.entries name value) : sizeOf value < sizeOf a := by
  obtain ⟨key, hKey, -⟩ := h
  induction a using Yaml.Value.untagged.induct with
  | case1 tag inner ih =>
    have hInner := ih hKey
    simp only [Value.tagged.sizeOf_spec]
    omega
  | case2 a hTag =>
    rw [Value.entries, Yaml.Value.untagged.eq_2 a hTag] at hKey
    split at hKey
    · have hMem := List.sizeOf_lt_of_mem hKey
      simp only [Prod.mk.sizeOf_spec, Value.map.sizeOf_spec] at hMem ⊢
      omega
    · cases hKey

theorem isSome_eq_of_rel {α : Type} {R : α → α → Prop} {x y : Option α}
    (h : Option.Rel R x y) : x.isSome = y.isSome := by
  cases h <;> rfl

theorem texts_agree {a b : Value} (h : Alike a b) {x y : List (String × String)}
    (hx : Shape.table Shape.text a = .ok x) (hy : Shape.table Shape.text b = .ok y) :
    Shuffled Eq x y :=
  Shape.table_agrees h (fun _ _ _ _ hAlike _ _ => Shape.text_agrees hAlike) hx hy

/-- Rules that are read from values that are alike are rearranged at most. -/
theorem readRule_agrees {a b : Value} (h : Alike a b) {rule other : Rule}
    (hRule : readRule a = .ok rule) (hOther : readRule b = .ok other) :
    rule.Rearranged other := by
  -- the rules of items and properties are read from smaller values
  induction hSize : sizeOf a using Nat.strongRecOn generalizing a b rule other with
  | ind size ih =>
    subst hSize
    obtain ⟨draft, hDraft, rfl⟩ := readRule_eq_ok hRule
    obtain ⟨second, hSecond, rfl⟩ := readRule_eq_ok hOther
    have hCorresponds := h.corresponds (Shape.record_texts hDraft)
    have agrees {β : Type} {R : β → β → Prop} {name : String} {read : Value → Shape.Result β}
        {get : Rule → β} (hField : Shape.HasField ruleStep name read get)
        (hDefault : R (get {}) (get {}))
        (hRead : ∀ x y, IsUnder a.entries name x → Alike x y →
          ∀ r s, read x = .ok r → read y = .ok s → R r s) :
        R (get draft.record) (get second.record) :=
      Shape.FieldOf.agrees hCorresponds hDefault hRead (Shape.record_field hField hDraft)
        (Shape.record_field hField hSecond)
    have hProperties : Shuffled Rule.Rearranged draft.record.properties second.record.properties :=
      agrees hasField_properties .nil fun x y hx hAlike r s hr hs =>
        Shape.table_agrees hAlike (fun name v w hv hInner p q hp hq =>
          ih _ (Nat.lt_trans (sizeOf_lt_of_isUnder hv) (sizeOf_lt_of_isUnder hx)) hInner hp hq rfl)
          hr hs
    have hItem : Option.Rel Rule.Rearranged draft.record.item second.record.item :=
      agrees hasField_item .none fun x y hx hAlike r s hr hs =>
        Shape.optional_agrees hAlike
          (fun p q hp hq => ih _ (sizeOf_lt_of_isUnder hx) hAlike hp hq rfl) hr hs
    refine .mk (agrees hasField_type rfl fun _ _ _ h _ _ => Shape.optionalText_agrees h)
      (fun f => agrees (hasField_flag f) rfl fun _ _ _ h _ _ => Shape.flag_agrees h)
      (fun b => agrees (hasField_bound b) .none fun _ _ _ h _ _ =>
        Shape.optional_agrees h fun _ _ => Shape.number_agrees h)
      (fun p => agrees (hasField_pattern p) rfl fun _ _ _ h _ _ => Shape.optionalText_agrees h)
      (agrees hasField_messages .nil fun _ _ _ h _ _ => texts_agree h)
      (agrees hasField_i18n .nil fun _ _ _ h _ _ => texts_agree h) ?_ ?_
      hProperties.names hProperties.nodup hProperties.related
    · exact isSome_eq_of_rel hItem
    · intro i j hi hj
      rw [hi, hj] at hItem
      cases hItem with
      | some h => exact h

end EntityGen.Form
